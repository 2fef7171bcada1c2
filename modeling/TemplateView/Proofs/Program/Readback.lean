/-
Clear expressions can be told from their texts. The text of a program has parentheses around binary and conditional
expressions only, so some expressions have the same text: `- -x` and `--x`, a member of `-x` and the negation of a member.
An expression that is `Clear` has none of these forms inside. Where its names are words and its constants those of literals
(`Named`), its text is read back as the expression (`reads`), and so determines it (`normal_eq_of_source`), but for one
thing: a property of the model is written like a member of the model. That makes no difference where the model is an object
(`eval_normal`).
-/
import TemplateView.Proofs.Program.Parts
import TemplateView.Proofs.Program.Reader
import TemplateView.Run.Expression

namespace TemplateView

namespace Expr

/-! ## What is read -/

/-- an expression whose text is open to its right: suffixes behind it would belong to its operand -/
def isOpen : Expr → Bool
  | .unary .. => true
  | .assign .. => true
  | _ => false

/-- a node of a lowered expression: its names are words and its constants are literals -/
def Named : Expr → Prop
  | .constant v => v.IsLiteral
  | .local name => IsWord name ∧ name ∉ ["true", "false", "null"]
  | .update name _ _ => IsWord name
  | .assign name _ => IsWord name
  | .model name => IsWord name
  | .member _ name => IsWord name
  | .callHelper name _ => IsWord name
  | .callMethod _ name _ => IsWord name
  | _ => True

/-- words that the text of a program uses for itself -/
def reserved : List String := ["model", "helpers", "Infinity"]

/-- a node that the text of a program shows as it is -/
def Clear : Expr → Prop
  | .local name => name ∉ reserved
  | .member object _ => object.isOpen = false
  | .index target _ => target.isOpen = false
  | .callMethod receiver _ _ => receiver.isOpen = false
  | .unary .negate operand => operand.source.toList.head? ≠ some '-'
  | _ => True

instance : DecidablePred Clear
  | .local name => inferInstanceAs (Decidable (name ∉ reserved))
  | .member object _ => inferInstanceAs (Decidable (object.isOpen = false))
  | .index target _ => inferInstanceAs (Decidable (target.isOpen = false))
  | .callMethod receiver _ _ => inferInstanceAs (Decidable (receiver.isOpen = false))
  | .unary .negate operand => inferInstanceAs (Decidable (operand.source.toList.head? ≠ some '-'))
  | .unary .not _ | .unary .new _ => .isTrue trivial
  | .constant _ | .model _ | .modelRoot | .callHelper .. | .array _ => .isTrue trivial
  | .update .. | .binary .. | .assign .. | .conditional .. => .isTrue trivial

mutual

/-- the expression with every property of the model written as a member of it -/
def normal : Expr → Expr
  | .constant v => .constant v
  | .local name => .local name
  | .model name => .member .modelRoot name
  | .modelRoot => .modelRoot
  | .member object name => .member object.normal name
  | .index target key => .index target.normal key.normal
  | .callHelper name arguments => .callHelper name (Expr.normals arguments)
  | .callMethod receiver name arguments => .callMethod receiver.normal name (Expr.normals arguments)
  | .array items => .array (Expr.normals items)
  | .unary op operand => .unary op operand.normal
  | .update name step fixity => .update name step fixity
  | .binary left op right => .binary left.normal op right.normal
  | .assign name value => .assign name value.normal
  | .conditional test whenTrue whenFalse => .conditional test.normal whenTrue.normal whenFalse.normal

def normals : List Expr → List Expr
  | [] => []
  | e :: es => e.normal :: Expr.normals es

end

/-! ## Texts in parts -/

/-- the texts of items, with what stands between them -/
def itemChars (es : List Expr) : List Char := (Text.join ", " (Expr.sources es)).toList

theorem itemChars_cons (e e' : Expr) (es : List Expr) :
    itemChars (e :: e' :: es) = e.source.toList ++ ',' :: ' ' :: itemChars (e' :: es) := by
  simp [itemChars, Text.join, Expr.sources, Text.joinWith]

theorem itemChars_singleton (e : Expr) : itemChars [e] = e.source.toList := by
  simp [itemChars, Text.join, Expr.sources, Text.joinWith]

/-- the text of an expression, with the texts of its parts in their places -/
def chars : Expr → List Char
  | .model name => modelRoot.source.toList ++ '.' :: name.toList
  | .member object name => object.source.toList ++ '.' :: name.toList
  | .index target key => target.source.toList ++ '[' :: (key.source.toList ++ [']'])
  | .callHelper name arguments =>
    (Expr.local "helpers").source.toList ++ '.' :: (name.toList ++ '(' :: (itemChars arguments ++ [')']))
  | .callMethod receiver name arguments =>
    receiver.source.toList ++ '.' :: (name.toList ++ '(' :: (itemChars arguments ++ [')']))
  | .array items => '[' :: (itemChars items ++ [']'])
  | .unary .not operand => '!' :: operand.source.toList
  | .unary .negate operand => '-' :: operand.source.toList
  | .unary .new operand => 'n' :: 'e' :: 'w' :: ' ' :: operand.source.toList
  | .update name step .before => step.text.toList ++ name.toList
  | .update name step .after => name.toList ++ step.text.toList
  | .binary left op right =>
    '(' :: (left.source.toList ++ ' ' :: (op.text.toList ++ ' ' :: (right.source.toList ++ [')'])))
  | .assign name value => name.toList ++ ' ' :: '=' :: ' ' :: value.source.toList
  | .conditional test whenTrue whenFalse =>
    '(' :: (test.source.toList ++ ' ' :: '?' :: ' ' :: (whenTrue.source.toList ++ ' ' :: ':' :: ' ' ::
      (whenFalse.source.toList ++ [')'])))
  | e => e.source.toList

theorem toList_source (e : Expr) : e.source.toList = e.chars := by
  cases e with
  | unary op => cases op <;> simp [source, chars]
  | update _ _ fixity => cases fixity <;> simp [source, chars]
  | _ => simp [source, chars, itemChars]

/-! ## Reading -/

/-- the text of an expression is read as the expression, given fuel for what is read -/
structure Reads (e : Expr) : Prop where
  whole : ∀ n ds, Stops ds → 4 * (e.source.toList ++ ds).length < n →
    Expr.read n (e.source.toList ++ ds) = some (e.normal, ds)
  front : e.isOpen = false → ∀ n ds, Follows ds → 4 * (e.source.toList ++ ds).length < n →
    ∃ m, 4 * ds.length < m ∧ Expr.read n (e.source.toList ++ ds) = Expr.readSuffixes m e.normal ds

/-- it is enough to say how an expression is read in front of suffixes -/
theorem reads_of_front {e : Expr} (h : ∀ n ds, Follows ds → 4 * (e.source.toList ++ ds).length < n + 1 →
    ∃ m, 4 * ds.length < m ∧ Expr.read (n + 1) (e.source.toList ++ ds) = Expr.readSuffixes m e.normal ds) : e.Reads := by
  have hfront : ∀ n ds, Follows ds → 4 * (e.source.toList ++ ds).length < n →
    ∃ m, 4 * ds.length < m ∧ Expr.read n (e.source.toList ++ ds) = Expr.readSuffixes m e.normal ds := by
    intro n ds hd hn
    obtain ⟨n, rfl⟩ := Nat.exists_eq_succ_of_ne_zero (by omega : n ≠ 0)
    exact h n ds hd hn
  refine ⟨fun n ds hd hn => ?_, fun _ => hfront⟩
  obtain ⟨m, hm, hr⟩ := hfront n ds (.stops hd) hn
  obtain ⟨m, rfl⟩ := Nat.exists_eq_succ_of_ne_zero (by omega : m ≠ 0)
  rw [hr, hd.readSuffixes]

/-- a word or a numeral by itself -/
theorem reads_atom {e : Expr} (h : IsWord e.source ∨ Number.Numeral e.source.toList)
    (he : ofWord e.source = e.normal) : e.Reads := by
  refine reads_of_front fun n ds hd hlen => ?_
  have hne : e.source.toList.length ≠ 0 := by
    rcases h with ⟨c, cs, hc, -⟩ | h
    · simp [hc]
    · obtain ⟨c, cs, hc, -⟩ := h.head
      simp [hc]
  have hread : Expr.read (n + 1) (e.source.toList ++ ds) = Expr.readWord n e.source ds :=
    h.elim (fun h => read_word_append h hd.endsWord n) fun h => read_numeral_append h hd n
  rw [List.length_append] at hlen
  obtain ⟨n, rfl⟩ := Nat.exists_eq_succ_of_ne_zero (by omega : n ≠ 0)
  exact ⟨n, by omega, by rw [hread, readWord_atom _ hd, he]⟩

/-! ## Suffixes -/

theorem readSuffixes_member {name : String} (hn : IsWord name) {ds : List Char} (hd : Follows ds) (n : Nat) (target : Expr) :
    Expr.readSuffixes (n + 1) target ('.' :: (name.toList ++ ds)) = Expr.readSuffixes n (.member target name) ds := by
  rw [Expr.readSuffixes, cutWord_append hn hd.endsWord]
  cases hd with
  | stops h =>
    cases h with
    | nil => rfl
    | mark h cs => obtain rfl | rfl | rfl := mem_closers h <;> rfl
    | space h => rfl
  | point h cs => rfl
  | bracket cs => rfl

theorem readSuffixes_call {name : String} (hn : IsWord name) (cs : List Char) (n : Nat) (target : Expr) :
    Expr.readSuffixes (n + 1) target ('.' :: (name.toList ++ '(' :: cs)) =
      (Expr.readItems n ')' cs).bind fun r => Expr.readSuffixes n (.callOf target name r.1) r.2 := by
  rw [Expr.readSuffixes, cutWord_append hn ⟨rfl, rfl⟩]
  rfl

theorem follows_point {name : String} (hn : IsWord name) (ds : List Char) : Follows ('.' :: (name.toList ++ ds)) := by
  obtain ⟨c, cs, hc, hs, -⟩ := hn
  rw [hc]
  exact .point hs _

/-- what is read behind an expression, with the fuel that is left -/
theorem reads_suffix {e target : Expr} (ht : target.Reads) (hopen : target.isOpen = false) (suffix : List Char)
    (he : e.source.toList = target.source.toList ++ suffix) (hs : ∀ ds, Follows (suffix ++ ds))
    (h : ∀ n ds, Follows ds → 4 * (suffix ++ ds).length < n + 1 →
      ∃ m, 4 * ds.length < m ∧ Expr.readSuffixes (n + 1) target.normal (suffix ++ ds) = Expr.readSuffixes m e.normal ds) :
    e.Reads := by
  refine reads_of_front fun n ds hd hlen => ?_
  rw [he, List.append_assoc] at hlen ⊢
  obtain ⟨m, hm, hr⟩ := ht.front hopen (n + 1) _ (hs ds) hlen
  obtain ⟨m, rfl⟩ := Nat.exists_eq_succ_of_ne_zero (by omega : m ≠ 0)
  obtain ⟨k, hk, hk'⟩ := h m ds hd hm
  exact ⟨k, hk, hr.trans hk'⟩

theorem reads_member {e target : Expr} (ht : target.Reads) (hopen : target.isOpen = false) {name : String}
    (hn : IsWord name) (he : e.source.toList = target.source.toList ++ '.' :: name.toList)
    (hmember : .member target.normal name = e.normal) : e.Reads := by
  refine reads_suffix ht hopen _ he (follows_point hn) fun n ds hd hlen => ?_
  simp only [List.length_append, List.length_cons] at hlen
  exact ⟨n, by omega, by rw [List.cons_append, readSuffixes_member hn hd, hmember]⟩

theorem reads_index {target key : Expr} (ht : target.Reads) (hopen : target.isOpen = false) (hk : key.Reads) :
    (Expr.index target key).Reads := by
  refine reads_suffix ht hopen ('[' :: (key.source.toList ++ [']'])) (toList_source _)
    (fun ds => .bracket _) fun n ds hd hlen => ?_
  simp only [List.append_assoc, List.length_append, List.length_cons, List.cons_append, List.nil_append] at hlen ⊢
  refine ⟨n, by omega, ?_⟩
  exact readSuffixes_index _ (hk.whole n (']' :: ds) (.mark (by simp) ds) (by simp; omega))

theorem read_items {close : Char} (hclose : close = ')' ∨ close = ']') {es : List Expr} (h : ∀ e ∈ es, e.Reads) (n : Nat)
    (ds : List Char) (hn : 4 * (itemChars es ++ close :: ds).length + 1 < n) :
    Expr.readItems n close (itemChars es ++ close :: ds) = some (Expr.normals es, ds) := by
  have hstops : close ∈ [')', ']', ','] := by simp; tauto
  induction es generalizing n with
  | nil =>
    have hlen : 4 * (close :: ds).length + 1 < n := hn
    rw [List.length_cons] at hlen
    obtain ⟨n, rfl⟩ := Nat.exists_eq_add_of_le' (show 3 ≤ n by omega)
    show Expr.readItems (n + 3) close (close :: ds) = some ([], ds)
    obtain rfl | rfl := hclose <;> rfl
  | cons e es ih =>
    obtain ⟨n, rfl⟩ := Nat.exists_eq_succ_of_ne_zero (by omega : n ≠ 0)
    have he := (h e List.mem_cons_self).whole n
    cases es with
    | nil =>
      rw [itemChars_singleton] at hn ⊢
      rw [Expr.readItems, he (close :: ds) (.mark hstops ds) (by omega)]
      obtain rfl | rfl := hclose <;> rfl
    | cons e' es =>
      rw [itemChars_cons, List.append_assoc, List.cons_append, List.cons_append] at hn ⊢
      simp only [List.length_append, List.length_cons] at hn
      have hread := he (',' :: ' ' :: (itemChars (e' :: es) ++ close :: ds)) (.mark (by simp) _) (by
        simp only [List.length_append, List.length_cons]
        omega)
      have hrest := ih (fun x hx => h x (List.mem_cons_of_mem e hx)) n (by
        simp only [List.length_append, List.length_cons]
        omega)
      rw [Expr.readItems, hread]
      simp only [List.drop_succ_cons, List.drop_zero, hrest]
      rfl

theorem reads_call {e target : Expr} (ht : target.Reads) (hopen : target.isOpen = false) {name : String}
    (hn : IsWord name) {arguments : List Expr} (ha : ∀ a ∈ arguments, a.Reads)
    (he : e.source.toList = target.source.toList ++ '.' :: (name.toList ++ '(' :: (itemChars arguments ++ [')'])))
    (hcall : callOf target.normal name (Expr.normals arguments) = e.normal) : e.Reads := by
  refine reads_suffix ht hopen _ he (fun ds => ?_) fun n ds hd hlen => ?_
  · rw [List.cons_append, List.append_assoc]
    exact follows_point hn _
  simp only [List.length_append, List.length_cons, List.cons_append, List.append_assoc, List.nil_append] at hlen ⊢
  refine ⟨n, by omega, ?_⟩
  have hread := read_items (.inl rfl) ha n ds (by simp only [List.length_append, List.length_cons]; omega)
  rw [readSuffixes_call hn, hread, hcall.symm]
  rfl

/-! ## Marks -/

/-- an expression that starts with a mark -/
theorem read_mark {c : Char} (hc : c ∈ ['!', '+', '-', '"', '[', '(']) (n : Nat) (cs : List Char) :
    Expr.read (n + 1) (c :: cs) = Expr.readMark n c cs := by
  simp only [List.mem_cons, List.not_mem_nil, or_false] at hc
  obtain rfl | rfl | rfl | rfl | rfl | rfl := hc <;> rfl

/-- an expression that starts with a mark and is closed -/
theorem reads_mark {e : Expr} {c : Char} (cs : List Char) (hc : c ∈ ['!', '+', '-', '"', '[', '('])
    (he : e.source.toList = c :: cs)
    (h : ∀ n ds, Follows ds → 4 * (cs ++ ds).length + 2 < n →
      Expr.readMark (n + 1) c (cs ++ ds) = Expr.readSuffixes n e.normal ds) : e.Reads := by
  refine reads_of_front fun n ds hd hlen => ?_
  rw [he, List.cons_append] at hlen ⊢
  rw [List.length_cons] at hlen
  obtain ⟨n, rfl⟩ := Nat.exists_eq_succ_of_ne_zero (by omega : n ≠ 0)
  rw [List.length_append] at hlen
  exact ⟨n, by omega, by rw [read_mark hc, h n ds hd (by rw [List.length_append]; omega)]⟩

theorem reads_array {items : List Expr} (h : ∀ e ∈ items, e.Reads) : (Expr.array items).Reads := by
  refine reads_mark (c := '[') (itemChars items ++ [']']) (by simp) (toList_source _)
    fun n ds hd hn => ?_
  rw [List.append_assoc, List.singleton_append] at hn ⊢
  exact readMark_array (read_items (.inr rfl) h n ds (by omega))

theorem reads_string (s : String) : (Expr.constant (.string s)).Reads := by
  refine reads_mark (c := '"') (s.toList.flatMap quoteChar ++ ['"']) (by simp)
    (toList_quoteString s) fun n ds hd hn => ?_
  rw [List.append_assoc, List.singleton_append, readMark_string n (untilQuote_quote _ ds), unescape_quote,
    String.ofList_toList]
  rfl

theorem reads_update_before {name : String} (hn : IsWord name) (step : Step) : (Expr.update name step .before).Reads := by
  cases step with
  | increment =>
    refine reads_mark (c := '+') ('+' :: name.toList) (by simp) (toList_source _) fun n ds hd _ => ?_
    rw [List.cons_append, readMark_increment, cutWord_append hn hd.endsWord]
    rfl
  | decrement =>
    refine reads_mark (c := '-') ('-' :: name.toList) (by simp) (toList_source _) fun n ds hd _ => ?_
    rw [List.cons_append, readMark_decrement, cutWord_append hn hd.endsWord]
    rfl

theorem reads_update_after {name : String} (hn : IsWord name) (step : Step) :
    (Expr.update name step .after).Reads := by
  refine reads_of_front fun n ds hd hlen => ?_
  have hsource : (Expr.update name step .after).source.toList ++ ds = name.toList ++ (step.text.toList ++ ds) := by
    rw [toList_source, chars, List.append_assoc]
  have hends : EndsWord (step.text.toList ++ ds) := by cases step <;> exact ⟨rfl, rfl⟩
  rw [hsource] at hlen ⊢
  have hlength : step.text.toList.length = 2 := by cases step <;> rfl
  simp only [List.length_append, hlength] at hlen
  obtain ⟨n, rfl⟩ := Nat.exists_eq_succ_of_ne_zero (by omega : n ≠ 0)
  refine ⟨n, by omega, ?_⟩
  rw [read_word_append hn hends]
  cases step <;> rfl

/-- an expression whose text is open to its right -/
theorem reads_open {e : Expr} (hopen : e.isOpen = true) (cs : List Char) {operand : Expr} (ho : operand.Reads)
    (he : e.source.toList = cs ++ operand.source.toList) (hcs : cs ≠ [])
    (h : ∀ n ds, Stops ds → Expr.read n (operand.source.toList ++ ds) = some (operand.normal, ds) →
      Expr.read (n + 2) (cs ++ (operand.source.toList ++ ds)) = some (e.normal, ds)) : e.Reads := by
  refine ⟨fun n ds hd hlen => ?_, fun hclosed => absurd hclosed (by rw [hopen]; exact nofun)⟩
  have := List.length_pos_iff.2 hcs
  rw [he, List.append_assoc] at hlen ⊢
  rw [List.length_append] at hlen
  obtain ⟨n, rfl⟩ := Nat.exists_eq_add_of_le' (show 2 ≤ n by omega)
  exact h n ds hd (ho.whole n ds hd (by omega))

theorem reads_not {operand : Expr} (ho : operand.Reads) : (Expr.unary .not operand).Reads := by
  refine reads_open rfl ['!'] ho (toList_source _) nofun fun n ds hd hr => ?_
  rw [List.singleton_append, read_mark (by simp)]
  exact readMark_not hr

theorem reads_negate {operand : Expr} (ho : operand.Reads) (hm : operand.source.toList.head? ≠ some '-') :
    (Expr.unary .negate operand).Reads := by
  refine reads_open rfl ['-'] ho (toList_source _) nofun fun n ds hd hr => ?_
  rw [List.singleton_append, read_mark (by simp)]
  refine readMark_negate (fun hcs => ?_) hr
  cases hs : operand.source.toList with
  | nil =>
    rw [hs, List.nil_append] at hcs
    cases hd with
    | nil => cases hcs
    | mark h cs => obtain rfl | rfl | rfl := mem_closers h <;> cases hcs
    | space h => cases hcs
  | cons c rest =>
    rw [hs] at hcs hm
    exact hm hcs

theorem reads_new {operand : Expr} (ho : operand.Reads) : (Expr.unary .new operand).Reads := by
  refine reads_open rfl ("new".toList ++ [' ']) ho (toList_source _) nofun fun n ds hd hr => ?_
  rw [List.append_assoc, List.singleton_append, read_word_append (by decide) ⟨rfl, rfl⟩, readWord_new hr]
  rfl

theorem reads_assign {name : String} (hn : IsWord name) {value : Expr} (hv : value.Reads) :
    (Expr.assign name value).Reads := by
  refine reads_open rfl (name.toList ++ [' ', '=', ' ']) hv (by rw [toList_source, chars, List.append_assoc]; rfl) (by simp) fun n ds hd hr => ?_
  rw [List.append_assoc, read_word_append hn ⟨rfl, rfl⟩]
  exact readWord_assign name hr

/-! ## Parentheses -/

theorem cutOperator_text (op : BinaryOperator) (cs : List Char) :
    cutOperator (' ' :: (op.text.toList ++ ' ' :: cs)) = (some op, cs) := by
  cases op <;> rfl

theorem stops_operator (op : BinaryOperator) (cs : List Char) : Stops (' ' :: (op.text.toList ++ ' ' :: cs)) := by
  refine .space (by cases op <;> rintro ⟨rest, h⟩ <;> cases h) fun n => ?_
  -- a minus sign is the longest way into an operator
  rcases n with - | - | - | - | n <;> cases op <;> rfl

/-- the signs of a conditional -/
theorem stops_sign {c : Char} (h : c = '?' ∨ c = ':') (cs : List Char) : Stops (' ' :: c :: ' ' :: cs) := by
  obtain rfl | rfl := h
  · exact .space (by rintro ⟨rest, h⟩; cases h) fun n => by rcases n with - | - | n <;> rfl
  · exact .space (by rintro ⟨rest, h⟩; cases h) fun n => by rcases n with - | - | n <;> rfl

theorem reads_binary {left right : Expr} (hl : left.Reads) (op : BinaryOperator) (hr : right.Reads) :
    (Expr.binary left op right).Reads := by
  refine reads_mark (c := '(')
    (left.source.toList ++ ' ' :: (op.text.toList ++ ' ' :: (right.source.toList ++ [')']))) (by simp)
    (toList_source _) fun n ds hd hn => ?_
  simp only [List.append_assoc, List.cons_append, List.nil_append, List.length_append, List.length_cons] at hn ⊢
  have hleft := hl.whole n _ (stops_operator op (right.source.toList ++ ')' :: ds)) (by
    simp only [List.length_append, List.length_cons]
    omega)
  have hright := hr.whole n (')' :: ds) (.mark (by simp) ds) (by
    simp only [List.length_append, List.length_cons]
    omega)
  rw [readMark_parenthesis hleft, cutOperator_text, hright]
  rfl

theorem reads_conditional {test whenTrue whenFalse : Expr} (ht : test.Reads) (hw : whenTrue.Reads) (hf : whenFalse.Reads) :
    (Expr.conditional test whenTrue whenFalse).Reads := by
  refine reads_mark (c := '(')
    (test.source.toList ++ ' ' :: '?' :: ' ' :: (whenTrue.source.toList ++ ' ' :: ':' :: ' ' ::
      (whenFalse.source.toList ++ [')']))) (by simp)
    (toList_source _) fun n ds hd hn => ?_
  simp only [List.append_assoc, List.cons_append, List.nil_append, List.length_append, List.length_cons] at hn ⊢
  have htest := ht.whole n (' ' :: '?' :: ' ' :: (whenTrue.source.toList ++ ' ' :: ':' :: ' ' ::
      (whenFalse.source.toList ++ ')' :: ds))) (stops_sign (.inl rfl) _) (by
    simp only [List.length_append, List.length_cons]
    omega)
  have htrue := hw.whole n (' ' :: ':' :: ' ' :: (whenFalse.source.toList ++ ')' :: ds))
    (stops_sign (.inr rfl) _) (by
    simp only [List.length_append, List.length_cons]
    omega)
  have hfalse := hf.whole n (')' :: ds) (.mark (by simp) ds) (by
    simp only [List.length_append, List.length_cons]
    omega)
  have hcut : ∀ cs, cutOperator (' ' :: '?' :: ' ' :: cs) = (none, cs) := fun _ => rfl
  rw [readMark_parenthesis htest, hcut, htrue, Option.bind_some]
  show (Expr.read n (whenFalse.source.toList ++ ')' :: ds)).bind _ = _
  rw [hfalse]
  rfl

/-! ## Every expression -/

/-- only one number is written as a word -/
theorem eq_infinity_of_isWord {x : Float} (hx : Number.Unsigned x) (h : IsWord (Value.numberText x)) :
    Value.numberText x = "Infinity" := by
  refine (Value.numberText_cases hx).resolve_left fun hn => ?_
  obtain ⟨c, cs, hc, hs, -⟩ := h
  obtain ⟨d, ds, hd, hdigit⟩ := hn.head
  rw [hc] at hd
  cases hd
  rw [isDigit_of_isWordStart hs] at hdigit
  cases hdigit

theorem numberText_ne_word {x : Float} (hx : Number.Unsigned x) {w : String} (h : IsWord w) (hw : w ≠ "Infinity") :
    Value.numberText x ≠ w := by
  rintro rfl
  exact hw (eq_infinity_of_isWord hx h)

theorem ofWord_local {w : String} (h : IsWord w) (hw : w ∉ ["model", "null", "true", "false", "Infinity"]) :
    ofWord w = .local w := by
  simp only [List.mem_cons, List.not_mem_nil, or_false, not_or] at hw
  obtain ⟨hm, hn, ht, hf, hi⟩ := hw
  rw [ofWord, if_neg hm, if_neg hn, if_neg ht, if_neg hf, dif_neg]
  rintro ⟨x, hx, hxw⟩
  exact numberText_ne_word hx h hi hxw

theorem ofWord_number {x : Float} (h : Number.Unsigned x) : ofWord (Value.numberText x) = .constant (.number x) := by
  have hex : ∃ y, Number.Unsigned y ∧ Value.numberText y = Value.numberText x := ⟨x, h, rfl⟩
  rw [ofWord, if_neg, if_neg, if_neg, if_neg, dif_pos hex, Value.eq_of_numberText hex.choose_spec.1 h hex.choose_spec.2]
  · exact numberText_ne_word h (by decide) (by decide)
  · exact numberText_ne_word h (by decide) (by decide)
  · exact numberText_ne_word h (by decide) (by decide)
  · exact numberText_ne_word h (by decide) (by decide)

theorem reads_number {x : Float} (hx : Number.Unsigned x) : (Expr.constant (.number x)).Reads := by
  have hs : (Expr.constant (.number x)).source = Value.numberText x := rfl
  refine reads_atom ?_ (by rw [hs, ofWord_number hx]; rfl)
  rw [hs]
  rcases Value.numberText_cases hx with hn | hn
  · exact .inr hn
  · rw [hn]
    exact .inl (by decide)

theorem reads_constant {v : Value} (h : v.IsLiteral) : (Expr.constant v).Reads := by
  cases v with
  | null => exact reads_atom (.inl (by decide)) rfl
  | bool b =>
    cases b with
    | true => exact reads_atom (.inl (by decide)) rfl
    | false => exact reads_atom (.inl (by decide)) rfl
  | number x => exact reads_number h
  | string s => exact reads_string s
  | raw => cases h
  | array => cases h
  | object => cases h

theorem reads_local {w : String} (h : IsWord w) (hw : w ∉ ["model", "null", "true", "false", "Infinity"]) :
    (Expr.local w).Reads :=
  reads_atom (.inl h) (ofWord_local h hw)

theorem reads_modelRoot : modelRoot.Reads :=
  reads_atom (.inl (by decide)) rfl

/-- a clear receiver is not taken for the helpers -/
theorem callOf_normal {e : Expr} (h : e.Clear) (name : String) (arguments : List Expr) :
    callOf e.normal name arguments = .callMethod e.normal name arguments := by
  cases e with
  | «local» r => exact if_neg fun hr => h (by rw [hr]; decide)
  | _ => rfl

theorem Every.self {P : Expr → Prop} {e : Expr} (h : e.Every P) : P e := by
  cases e <;> first | exact h | exact h.1

mutual

/-- **Clear expressions are read back from their texts.** -/
theorem reads : ∀ e : Expr, e.Every Named → e.Every Clear → e.Reads
  | .constant _, h, _ => reads_constant h
  | .local name, h, hc => by
    have hw : name ∉ ["true", "false", "null"] := h.2
    have hc : name ∉ reserved := hc
    simp only [reserved, List.mem_cons, List.not_mem_nil, or_false, not_or] at hw hc
    exact reads_local h.1 (by simp; tauto)
  | .model _, h, _ => reads_member reads_modelRoot rfl h (toList_source _) rfl
  | .modelRoot, _, _ => reads_modelRoot
  | .member object _, h, hc => reads_member (reads object h.2 hc.2) hc.1 h.1 (toList_source _) rfl
  | .index target key, h, hc => reads_index (reads target h.2.1 hc.2.1) hc.1 (reads key h.2.2 hc.2.2)
  | .callHelper _ arguments, h, hc =>
    reads_call (reads_local (w := "helpers") (by decide) (by decide)) rfl h.1 (reads_all arguments h.2 hc.2)
      (toList_source _) rfl
  | .callMethod receiver _ arguments, h, hc =>
    reads_call (reads receiver h.2.1 hc.2.1) hc.1 h.1 (reads_all arguments h.2.2 hc.2.2) (toList_source _)
      (callOf_normal hc.2.1.self _ _)
  | .array items, h, hc => reads_array (reads_all items h.2 hc.2)
  | .unary .not operand, h, hc => reads_not (reads operand h.2 hc.2)
  | .unary .negate operand, h, hc => reads_negate (reads operand h.2 hc.2) hc.1
  | .unary .new operand, h, hc => reads_new (reads operand h.2 hc.2)
  | .update _ step .before, h, _ => reads_update_before h step
  | .update _ step .after, h, _ => reads_update_after h step
  | .binary left op right, h, hc => reads_binary (reads left h.2.1 hc.2.1) op (reads right h.2.2 hc.2.2)
  | .assign _ value, h, hc => reads_assign h.1 (reads value h.2 hc.2)
  | .conditional test whenTrue whenFalse, h, hc =>
    reads_conditional (reads test h.2.1 hc.2.1) (reads whenTrue h.2.2.1 hc.2.2.1) (reads whenFalse h.2.2.2 hc.2.2.2)

theorem reads_all : ∀ es : List Expr, Expr.AllEvery Named es → Expr.AllEvery Clear es → ∀ e ∈ es, e.Reads
  | [], _, _ => List.forall_mem_nil _
  | e :: es, h, hc => List.forall_mem_cons.2 ⟨reads e h.1 hc.1, reads_all es h.2 hc.2⟩

end

/-- **The text of a clear expression determines it**, but for the way in which a property of the model is written. -/
theorem normal_eq_of_source {e e' : Expr} (hn : e.Every Named) (hc : e.Every Clear) (hn' : e'.Every Named)
    (hc' : e'.Every Clear) (h : e.source = e'.source) : e.normal = e'.normal := by
  have hr := (reads e hn hc).whole _ [] .nil (Nat.lt_succ_self _)
  have hr' := (reads e' hn' hc').whole _ [] .nil (Nat.lt_succ_self _)
  rw [h, hr'] at hr
  simpa using hr.symm

/-! ## Meaning -/

variable {env : Surroundings} {members : List (String × Value)}

mutual

/-- a property of a model that is an object is a member of it -/
theorem eval_normal (hm : env.model = .object members) : ∀ e : Expr, e.normal.eval env = e.eval env
  | .constant _ => rfl
  | .local _ => rfl
  | .model name => by
    funext r
    rw [normal, eval, eval, eval, hm]
    rfl
  | .modelRoot => rfl
  | .member object _ => by rw [normal, eval, eval, eval_normal hm object]
  | .index target key => by rw [normal, eval, eval, eval_normal hm target, eval_normal hm key]
  | .callHelper _ arguments => by rw [normal, eval, eval, evalAll_normals hm arguments]
  | .callMethod receiver _ arguments => by rw [normal, eval, eval, eval_normal hm receiver, evalAll_normals hm arguments]
  | .array items => by rw [normal, eval, eval, evalAll_normals hm items]
  | .unary _ operand => by rw [normal, eval, eval, eval_normal hm operand]
  | .update .. => rfl
  | .binary left _ right => by rw [normal, eval, eval, eval_normal hm left, eval_normal hm right]
  | .assign _ value => by rw [normal, eval, eval, eval_normal hm value]
  | .conditional test whenTrue whenFalse => by
    rw [normal, eval, eval, eval_normal hm test, eval_normal hm whenTrue, eval_normal hm whenFalse]

theorem evalAll_normals (hm : env.model = .object members) : ∀ es : List Expr, evalAll env (normals es) = evalAll env es
  | [] => rfl
  | e :: es => by rw [normals, evalAll, evalAll, eval_normal hm e, evalAll_normals hm es]

end

end Expr

end TemplateView
