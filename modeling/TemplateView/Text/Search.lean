/-
Finding, splitting and joining over lists of characters. `breakAt` finds the first occurrence; splitting repeats it, so
that joining the parts with the separator gives the text back.
-/
namespace TemplateView.Text

/-- ASCII letters in lower case, all else as it is -/
def asciiLower (s : String) : String :=
  String.ofList (s.toList.map Char.toLower)

/-- equal up to the case of ASCII letters -/
def equalIgnoringCase (s t : String) : Bool :=
  asciiLower s == asciiLower t

/-- what stands before and after the first occurrence of `part` -/
def breakAt (part : List Char) : List Char → Option (List Char × List Char)
  | [] => if part = [] then some ([], []) else none
  | c :: cs =>
    if part.isPrefixOf (c :: cs) then some ([], (c :: cs).drop part.length)
    else (breakAt part cs).map fun p => (c :: p.1, p.2)

/-- an occurrence cuts the text in three -/
theorem eq_append_of_breakAt {part cs before after : List Char} (h : breakAt part cs = some (before, after)) :
    cs = before ++ part ++ after := by
  induction cs generalizing before after with
  | nil =>
    simp only [breakAt, Option.ite_none_right_eq_some, Option.some.injEq, Prod.mk.injEq] at h
    obtain ⟨rfl, rfl, rfl⟩ := h
    rfl
  | cons c cs ih =>
    rw [breakAt] at h
    split at h
    · next hp =>
      simp only [Option.some.injEq, Prod.mk.injEq] at h
      obtain ⟨rfl, rfl⟩ := h
      obtain ⟨t, ht⟩ := List.isPrefixOf_iff_prefix.1 hp
      rw [← ht]
      simp
    · obtain ⟨⟨b, a⟩, hb, he⟩ := Option.map_eq_some_iff.1 h
      simp only [Prod.mk.injEq] at he
      obtain ⟨rfl, rfl⟩ := he
      rw [ih hb]
      rfl

theorem length_lt_of_breakAt {part cs before after : List Char} (hp : part ≠ [])
    (h : breakAt part cs = some (before, after)) : after.length < cs.length := by
  have hl := congrArg List.length (eq_append_of_breakAt h)
  have := List.length_pos_iff.2 hp
  simp only [List.length_append] at hl
  omega

/-- the parts between the occurrences of a separator, from left to right; an empty separator leaves the text whole -/
def splitOn (sep cs : List Char) : List (List Char) :=
  if hs : sep = [] then [cs]
  else
    match h : breakAt sep cs with
    | none => [cs]
    | some (before, after) =>
      have := length_lt_of_breakAt hs h
      before :: splitOn sep after
termination_by cs.length

/-- the parts with the separator between neighbours -/
def joinWith (sep : List Char) : List (List Char) → List Char
  | [] => []
  | [p] => p
  | p :: q :: ps => p ++ sep ++ joinWith sep (q :: ps)

/-- the texts with a separator between neighbours -/
def join (sep : String) (parts : List String) : String :=
  String.ofList (joinWith sep.toList (parts.map String.toList))

/-- the text before `ending`, if it ends so -/
def stripSuffix (ending cs : List Char) : Option (List Char) :=
  if ending.isSuffixOf cs then some (cs.take (cs.length - ending.length)) else none

/-- without one carriage return at the end -/
def stripReturn (cs : List Char) : List Char :=
  (stripSuffix ['\r'] cs).getD cs

/-- lines without their ends (a line feed, or a carriage return and a line feed); no empty line follows the last end -/
def linesOf : List (List Char) → List (List Char)
  | [] => []
  | [last] => if last.isEmpty then [] else [last]
  | l :: m :: ls => stripReturn l :: linesOf (m :: ls)

/-- the lines of a text -/
def lines (s : String) : List String :=
  (linesOf (splitOn ['\n'] s.toList)).map String.ofList

end TemplateView.Text
