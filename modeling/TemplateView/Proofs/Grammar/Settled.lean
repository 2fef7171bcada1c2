/-
Parsers that settle. `loop` and `nested` bound rounds and depth by numbers, and end in `noProgress` where a number runs
out. `Settled` relates two copies of a parser that differ only in such numbers: on every stream that is short enough both
do the same, no bound runs out, no token is added, and tokens are used up where that is asked. It also says where errors
point: at the places `P` of the tokens, or of the end.

There is one rule for each step of a parser. Inside a parser that refers to itself, the copies of the parser settle on
streams of less than `k` tokens, and behind one token that is used up this suffices for `k + 1` (`settled_draw`,
`settled_nested`).
-/
import TemplateView.Proofs.Grammar.Takes

namespace TemplateView

/-- the error says that a parser consumed nothing -/
def SourceError.Stall (e : SourceError) : Prop := ∃ p, e = .grammatical (.noProgress p)

/-- the places of the tokens and of the end are as described -/
def TokenStream.Placed (P : Position → Prop) (s : TokenStream) : Prop :=
  (∀ t ∈ s.rest, P t.position) ∧ P s.finish

namespace Parser

variable {α β σ ι : Type} {P : Position → Prop} {k : Nat} {S T : α → Prop}

/-- A run ends as it should: it leaves no more than there was, and less if the result has to cost a token; or it fails at
a place as described, and not because nothing was consumed. -/
def Ends (P : Position → Prop) (T : α → Prop) (s : TokenStream) : Except SourceError (α × TokenStream) → Prop
  | .ok (a, t) => t.Placed P ∧ t.remaining ≤ s.remaining ∧ (T a → t.remaining < s.remaining)
  | .error e => P e.position ∧ ¬ e.Stall

/-- on streams of less than `k` tokens two parsers do the same and end as they should; a result in `T` costs a token -/
def Settled (P : Position → Prop) (k : Nat) (T : α → Prop) (m m' : Parser α) : Prop :=
  ∀ s, s.Placed P → s.remaining < k → m' s = m s ∧ Ends P T s (m s)

/-- settled, whether or not a token is used up -/
abbrev Settles (P : Position → Prop) (k : Nat) (m m' : Parser α) : Prop := Settled P k (fun _ => False) m m'

/-- settled, and a token is used up -/
abbrev Spends (P : Position → Prop) (k : Nat) (m m' : Parser α) : Prop := Settled P k (fun _ => True) m m'

/-- settled as a round of a loop: unless it is the last, a token is used up -/
abbrev SettledRound (P : Position → Prop) (k : Nat) (m m' : Parser (σ ⊕ α)) : Prop :=
  Settled P k (fun x => x.isLeft = true) m m'

/-- what ends as it should behind a rest of a stream does so on the stream -/
theorem Ends.behind {s t : TokenStream} {r : Except SourceError (α × TokenStream)} (h : Ends P S t r)
    (hle : t.remaining ≤ s.remaining) (hT : ∀ a, T a → S a ∨ t.remaining < s.remaining) : Ends P T s r := by
  cases r with
  | error e => exact h
  | ok r =>
    obtain ⟨a, u⟩ := r
    obtain ⟨hu, hrest, hspent⟩ := h
    refine ⟨hu, Nat.le_trans hrest hle, fun ha => ?_⟩
    rcases hT a ha with hs | hlt
    · exact Nat.lt_of_lt_of_le (hspent hs) hle
    · exact Nat.lt_of_le_of_lt hrest hlt

theorem Settled.mono {m m' : Parser α} {j : Nat} (h : Settled P k S m m') (hj : j ≤ k) (hT : ∀ a, T a → S a) :
    Settled P j T m m' := by
  intro s hs hlen
  obtain ⟨heq, hend⟩ := h s hs (Nat.lt_of_lt_of_le hlen hj)
  exact ⟨heq, hend.behind (Nat.le_refl _) fun a ha => .inl (hT a ha)⟩

theorem Settled.settles {m m' : Parser α} (h : Settled P k T m m') : Settles P k m m' :=
  h.mono (Nat.le_refl k) fun _ => False.elim

theorem Settled.spends {m m' : Parser α} (h : Spends P k m m') : Settled P k T m m' :=
  h.mono (Nat.le_refl k) fun _ _ => trivial

/-- settled on longer streams, so on shorter ones -/
theorem Settled.below {m m' : Parser α} (h : Settled P (k + 1) T m m') : Settled P k T m m' :=
  h.mono (Nat.le_succ k) fun _ => id

theorem SettledRound.round {m m' : Parser (σ ⊕ α)} (h : SettledRound P k m m') :
    Settled P k (Sum.elim (fun _ => True) fun _ => False) m m' :=
  h.mono (Nat.le_refl k) fun x hx => by
    cases x with
    | inl _ => rfl
    | inr _ => exact hx.elim

theorem placed_all (s : TokenStream) : s.Placed fun _ => True := ⟨fun _ _ => trivial, trivial⟩

/-- what a settled parser leaves of any stream -/
theorem Settled.remaining {m : Parser α} (h : ∀ k, Settled (fun _ => True) k T m m) {s t : TokenStream} {a : α}
    (hm : m s = .ok (a, t)) : t.remaining ≤ s.remaining ∧ (T a → t.remaining < s.remaining) := by
  have hend := (h (s.remaining + 1) s (placed_all s) (Nat.lt_succ_self _)).2
  rw [hm] at hend
  exact hend.2

/-- a settled parser fails on no stream because nothing was consumed -/
theorem Settled.not_stall {m : Parser α} (h : ∀ k, Settled (fun _ => True) k T m m) {s : TokenStream} {e : SourceError}
    (hm : m s = .error e) : ¬ e.Stall := by
  have hend := (h (s.remaining + 1) s (placed_all s) (Nat.lt_succ_self _)).2
  rw [hm] at hend
  exact hend.2

/-! ## Steps -/

theorem settles_pure (a : α) : Settles P k (pure a) (pure a) :=
  fun _ hs _ => ⟨rfl, hs, Nat.le_refl _, False.elim⟩

/-- the last round of a loop, which gives the result -/
theorem settled_done (r : α) : SettledRound P k (pure (.inr r) : Parser (σ ⊕ α)) (pure (.inr r)) :=
  fun _ hs _ => ⟨rfl, hs, Nat.le_refl _, nofun⟩

theorem settled_fail {e : ParseError} (hp : P e.position) (hk : e.kind ≠ .noProgress) :
    Settled P k T (fail e) (fail e) := by
  refine fun s _ _ => ⟨rfl, hp, ?_⟩
  rintro ⟨p, h⟩
  cases h
  exact hk rfl

/-- nothing follows a failure -/
theorem settled_fail_bind {e : ParseError} {f f' : β → Parser α} (hp : P e.position) (hk : e.kind ≠ .noProgress) :
    Settled P k T (fail e >>= f) (fail e >>= f') :=
  settled_fail hp hk

theorem settles_atEnd : Settles P k atEnd atEnd :=
  fun _ hs _ => ⟨rfl, hs, Nat.le_refl _, False.elim⟩

/-- two steps; the second one has to settle on what the first one leaves -/
theorem settled_bind_at {m m' : Parser α} {f f' : α → Parser β} {j : Nat} {T : β → Prop} (hm : Settled P k S m m')
    (hf : ∀ a, Settled P j (fun b => T b ∧ ¬ S a) (f a) (f' a)) (hk : ∀ a, k ≤ j ∨ S a ∧ k ≤ j + 1) :
    Settled P k T (m >>= f) (m' >>= f') := by
  intro s hs hlen
  obtain ⟨heq, hend⟩ := hm s hs hlen
  rw [bind_run, bind_run, heq]
  cases hms : m s with
  | error e =>
    rw [hms] at hend
    exact ⟨rfl, hend⟩
  | ok r =>
    obtain ⟨a, t⟩ := r
    rw [hms] at hend
    obtain ⟨ht, hle, hlt⟩ := hend
    have hshort : t.remaining < j := by
      rcases hk a with h | ⟨ha, h⟩
      · omega
      · have := hlt ha
        omega
    obtain ⟨heq', hend'⟩ := hf a t ht hshort
    refine ⟨heq', hend'.behind hle fun b hb => ?_⟩
    by_cases ha : S a
    · exact .inr (hlt ha)
    · exact .inl ⟨hb, ha⟩

theorem settled_bind {m m' : Parser α} {f f' : α → Parser β} {T : β → Prop} (hm : Settled P k S m m')
    (hf : ∀ a, Settled P k T (f a) (f' a)) : Settled P k T (m >>= f) (m' >>= f') :=
  settled_bind_at hm (fun a => (hf a).mono (Nat.le_refl k) fun _ => And.left) fun _ => .inl (Nat.le_refl k)

/-- the first step uses up a token -/
theorem settled_spend {m m' : Parser α} {f f' : α → Parser β} {T : β → Prop} (hm : Spends P (k + 1) m m')
    (hf : ∀ a, Settles P k (f a) (f' a)) : Settled P (k + 1) T (m >>= f) (m' >>= f') :=
  settled_bind_at hm (fun a => (hf a).mono (Nat.le_refl k) fun _ h => h.2 trivial)
    fun _ => .inr ⟨trivial, Nat.le_refl _⟩

/-- the first step uses up a token, and the second needs none of that -/
theorem settled_spend_keep {m m' : Parser α} {f f' : α → Parser β} {T : β → Prop} (hm : Spends P k m m')
    (hf : ∀ a, Settles P k (f a) (f' a)) : Settled P k T (m >>= f) (m' >>= f') :=
  settled_bind_at hm (fun a => (hf a).mono (Nat.le_refl k) fun _ h => h.2 trivial) fun _ => .inl (Nat.le_refl k)

/-! ## Tokens -/

/-- looks at a token -/
def Looks (P : Position → Prop) (m : Parser Token) : Prop :=
  ∀ s, s.Placed P → ∃ t, P t.position ∧ m s = .ok (t, s)

/-- takes a token, behind whitespace perhaps -/
def Draws (P : Position → Prop) (m : Parser Token) : Prop :=
  ∀ s, s.Placed P → Ends P (fun _ => True) s (m s) ∧ ∀ t s', m s = .ok (t, s') → P t.position

section

variable {s : TokenStream}

theorem placed_peekNth (hs : s.Placed P) (n : Nat) : P (s.peekNth n).position := by
  rw [TokenStream.peekNth, List.getD_eq_getElem?_getD]
  cases h : s.rest[n]? with
  | none => exact hs.2
  | some t => exact hs.1 t (List.mem_of_getElem? h)

theorem placed_advance (hs : s.Placed P) : s.advance.Placed P :=
  ⟨fun t ht => hs.1 t (List.mem_of_mem_drop ht), hs.2⟩

theorem placed_passBlank (hs : s.Placed P) (b : Blanks) : (s.passBlank b).Placed P :=
  TokenStream.passBlank_of_advance hs (placed_advance hs) b

theorem looks_peek (b : Blanks) : Looks P (peek b) :=
  fun _ hs => ⟨_, placed_peekNth (placed_passBlank hs b) 0, rfl⟩

theorem looks_peekNext (b : Blanks) : Looks P (peekNext b) :=
  fun _ hs => ⟨_, placed_peekNth (placed_passBlank (placed_advance (placed_passBlank hs b)) b) 0, rfl⟩

theorem looks_peekNth (n : Nat) : Looks P (peekNth n) :=
  fun _ hs => ⟨_, placed_peekNth hs n, rfl⟩

theorem draws_consume (b : Blanks) : Draws P (consume b) := by
  intro s hs
  have hp := placed_passBlank hs b
  have hle := s.remaining_passBlank b
  rw [show consume b s = consume .kept (s.passBlank b) from rfl]
  generalize s.passBlank b = u at hp hle
  obtain ⟨rest, finish⟩ := u
  cases rest with
  | nil =>
    refine ⟨⟨hp.2, ?_⟩, nofun⟩
    rintro ⟨p, ⟨⟩⟩
  | cons t rest =>
    refine ⟨⟨⟨fun u hu => hp.1 u (List.mem_cons_of_mem t hu), hp.2⟩, Nat.le_of_lt hle, fun _ => hle⟩, ?_⟩
    intro u s' h
    cases h
    exact hp.1 t List.mem_cons_self

theorem draws_expected (b : Blanks) (e : Expected) : Draws P (taking (·.consumeExpected b e)) := by
  intro s hs
  by_cases h : e.matches (s.peek b) = true
  · have hrun : taking (·.consumeExpected b e) s = consume b s := by
      rw [taking, TokenStream.consumeExpected, if_pos h]
      rfl
    rw [hrun]
    exact draws_consume b s hs
  · have hrun : taking (·.consumeExpected b e) s =
        .error (.lexical ⟨(s.peek b).position, e.describe, (s.peek b).describe⟩) := by
      rw [taking, TokenStream.consumeExpected, if_neg h]
    rw [hrun]
    refine ⟨⟨placed_peekNth (placed_passBlank hs b) 0, ?_⟩, ?_⟩
    · rintro ⟨p, ⟨⟩⟩
    · intro t s' ht
      cases ht

theorem draws_expect (b : Blanks) (text : String) : Draws P (expect b text) := draws_expected b (.text text)

theorem draws_expectOneOf (b : Blanks) (texts : List String) : Draws P (expectOneOf b texts) :=
  draws_expected b (.oneOf texts)

theorem draws_expectCategory (b : Blanks) (c : Category) : Draws P (expectCategory b c) :=
  draws_expected b (.category c)

end

theorem settled_look {m : Parser Token} {f f' : Token → Parser α} (hm : Looks P m)
    (hf : ∀ t, P t.position → Settled P k T (f t) (f' t)) : Settled P k T (m >>= f) (m >>= f') := by
  intro s hs hlen
  obtain ⟨t, ht, hms⟩ := hm s hs
  rw [bind_ok hms, bind_ok hms]
  exact hf t ht s hs hlen

theorem settled_peek {b : Blanks} {f f' : Token → Parser α}
    (hf : ∀ t, P t.position → Settled P k T (f t) (f' t)) : Settled P k T (peek b >>= f) (peek b >>= f') :=
  settled_look (looks_peek b) hf

/-- Behind a token the stream is shorter, so that what settles on shorter streams will do. -/
theorem settled_draw {m : Parser Token} {f f' : Token → Parser α} (hm : Draws P m)
    (hf : ∀ t, P t.position → Settles P k (f t) (f' t)) : Settled P (k + 1) T (m >>= f) (m >>= f') := by
  intro s hs hlen
  obtain ⟨hend, hplace⟩ := hm s hs
  rw [bind_run, bind_run]
  cases hms : m s with
  | error e =>
    rw [hms] at hend
    exact ⟨rfl, hend⟩
  | ok r =>
    obtain ⟨t, s'⟩ := r
    rw [hms] at hend
    have hlt : s'.remaining < s.remaining := hend.2.2 trivial
    obtain ⟨heq, hend'⟩ := hf t (hplace t s' hms) s' hend.1 (by omega)
    exact ⟨heq, hend'.behind (Nat.le_of_lt hlt) fun _ _ => .inr hlt⟩

theorem settled_draw_keep {m : Parser Token} {f f' : Token → Parser α} (hm : Draws P m)
    (hf : ∀ t, P t.position → Settles P k (f t) (f' t)) : Settled P k T (m >>= f) (m >>= f') :=
  (settled_draw hm hf).below

/-- a token is taken and something made of it -/
theorem settled_drawn {m : Parser Token} (hm : Draws P m) (f : Token → α) :
    Settled P k T (m >>= fun t => pure (f t)) (m >>= fun t => pure (f t)) :=
  settled_draw_keep hm fun _ _ => settles_pure _

theorem spends_word (b : Blanks) : Spends P k (word b) (word b) :=
  settled_drawn (draws_expectCategory b _) _

theorem settles_blank : Settles P k blank blank := by
  refine settled_peek fun t _ => ?_
  split
  · exact settled_drawn (draws_consume _) _
  · exact settles_pure _

/-- where whitespace is next, it is taken -/
theorem blank_bind_run {s : TokenStream} (hw : (s.peek .kept).isWhitespace = true) (f : String → Parser α) :
    (blank >>= f) s = (consume .kept >>= fun t => f t.text) s := by
  rw [bind_run, blank, bind_ok (peek_run .kept s), if_pos hw, bind_run, bind_run]
  cases consume .kept s <;> rfl

/-! ## Loops -/

theorem loop_succ (step : σ → Parser (σ ⊕ α)) (n : Nat) (a : σ) :
    loop step (n + 1) a = step a >>= Sum.elim (loop step n) pure := by
  show step a >>= _ = _
  congr 1
  funext x
  cases x <;> rfl

/-- Two loops of settled rounds settle whatever the bounds on their rounds are, if these allow for the tokens left. -/
theorem settled_loop {step step' : σ → Parser (σ ⊕ α)}
    (h : ∀ a, Settled P k (Sum.elim (fun _ => True) T) (step a) (step' a)) {j : Nat} (hj : j ≤ k) (n n' : Nat)
    (hn : j ≤ n) (hn' : j ≤ n') (a : σ) : Settled P j T (loop step n a) (loop step' n' a) := by
  induction j generalizing n n' a with
  | zero => exact fun _ _ hlen => absurd hlen (Nat.not_lt_zero _)
  | succ j ih =>
    obtain ⟨n, rfl⟩ : ∃ i, n = i + 1 := ⟨n - 1, by omega⟩
    obtain ⟨n', rfl⟩ : ∃ i, n' = i + 1 := ⟨n' - 1, by omega⟩
    intro s hs hlen
    obtain ⟨heq, hend⟩ := h a s hs (Nat.lt_of_lt_of_le hlen hj)
    rw [loop_succ, loop_succ, bind_run, bind_run, heq]
    cases hms : step a s with
    | error e =>
    rw [hms] at hend
    exact ⟨rfl, hend⟩
    | ok r =>
      obtain ⟨x, t⟩ := r
      rw [hms] at hend
      obtain ⟨ht, hle, hlt⟩ := hend
      cases x with
      | inr r => exact ⟨rfl, ht, hle, hlt⟩
      | inl b =>
        -- the round has used up a token, so fewer rounds will do for the rest
        have hlt : t.remaining < s.remaining := hlt trivial
        obtain ⟨heq', hend'⟩ := ih (by omega) n n' (by omega) (by omega) b t ht (by omega)
        exact ⟨heq', hend'.behind hle fun _ _ => .inr hlt⟩

theorem settled_iterate {step step' : σ → Parser (σ ⊕ α)}
    (h : ∀ a, Settled P k (Sum.elim (fun _ => True) T) (step a) (step' a)) (a : σ) :
    Settled P k T (iterate a step) (iterate a step') :=
  fun s hs hlen => settled_loop h hlen _ _ (Nat.le_refl _) (Nat.le_refl _) a s hs (Nat.lt_succ_self _)

/-- a loop whose rounds use up tokens -/
theorem settles_iterate {step step' : σ → Parser (σ ⊕ α)} (h : ∀ a, SettledRound P k (step a) (step' a)) (a : σ) :
    Settles P k (iterate a step) (iterate a step') :=
  settled_iterate (fun a => (h a).round) a

/-- a loop whose rounds use up tokens, the last one included -/
theorem spends_iterate {step step' : σ → Parser (σ ⊕ α)} (h : ∀ a, Spends P k (step a) (step' a)) (a : σ) :
    Spends P k (iterate a step) (iterate a step') :=
  settled_iterate (fun a => (h a).spends) a

/-- **A settled loop goes on until it is done.** The bound on its rounds does not show. -/
theorem iterate_eq {step : σ → Parser (σ ⊕ α)} (h : ∀ k a, SettledRound (fun _ => True) k (step a) (step a)) (a : σ) :
    iterate a step = step a >>= Sum.elim (iterate · step) pure := by
  funext s
  have hrun : iterate a step s = (step a >>= Sum.elim (loop step s.remaining) pure) s := by rw [← loop_succ]; rfl
  rw [hrun, bind_run, bind_run]
  cases hms : step a s with
  | error e => rfl
  | ok r =>
    obtain ⟨x, t⟩ := r
    cases x with
    | inr r => rfl
    | inl b =>
      have hlt : t.remaining < s.remaining := (Settled.remaining (fun k => h k a) hms).2 rfl
      have hstep : ∀ b, Settled (fun _ => True) (t.remaining + 1) (Sum.elim (fun _ => True) fun _ => False) (step b)
          (step b) := fun b => (h _ b).round
      exact (settled_loop hstep (Nat.le_refl _) _ _ (Nat.le_refl _) hlt b t (placed_all t) (Nat.lt_succ_self _)).1

/-! ## Parsers that refer to themselves -/

/-- depths that allow for the tokens left do not show -/
theorem settled_nested {unfold : (ι → Parser α) → ι → Parser α}
    (h : ∀ k self self', (∀ i, Settled P k T (self i) (self' i)) →
      ∀ i, Settled P (k + 1) T (unfold self i) (unfold self' i)) (n n' : Nat) (hn : k ≤ n) (hn' : k ≤ n') (i : ι) :
    Settled P k T (nested unfold n i) (nested unfold n' i) := by
  induction k generalizing n n' i with
  | zero => exact fun _ _ hlen => absurd hlen (Nat.not_lt_zero _)
  | succ k ih =>
    obtain ⟨n, rfl⟩ : ∃ j, n = j + 1 := ⟨n - 1, by omega⟩
    obtain ⟨n', rfl⟩ : ∃ j, n' = j + 1 := ⟨n' - 1, by omega⟩
    exact h k _ _ (fun i => ih n n' (by omega) (by omega) i) i

end Parser

end TemplateView
