import DeskCalculator.Text.Blank

/-!
# Square root groups

A square root is written `√(…)`.  `splitClosing` divides the text after an opened
parenthesis at the one that closes it, which stands at the byte `closingOffset?`, and `pieces`
cuts a text into its root groups and the characters that stand outside of them.  A `√` without a group, with an unclosed one or with
an empty one is a character like any other.

The text inside of a group has fewer `√` than the whole (`count_lt_of_mem_pieces`), so that
groups can be evaluated from the inside out.
-/

namespace DeskCalculator

namespace Expression

/-- The square root sign. -/
def rootSign : Char := '√'

/-- Divides a text at the parenthesis that closes the outermost of `opened + 1` groups that
have been opened before it: the part in front and the part behind. -/
def splitClosing (opened : Nat) : Text → Option (Text × Text)
  | [] => none
  | c :: t =>
    if c = ')' ∧ opened = 0 then some ([], t)
    else
      let still := if c = '(' then opened + 1 else if c = ')' then opened - 1 else opened
      (splitClosing still t).map fun (inner, rest) => (c :: inner, rest)

/-- The number of open groups that the search counts behind the text `u`, if it counts `opened`
in front of it. -/
def openBehind (opened : Nat) (u : Text) : Nat :=
  u.foldl (fun k c => if c = '(' then k + 1 else if c = ')' then k - 1 else k) opened

/-- The number of bytes of a text in UTF-8. -/
def byteLength (t : Text) : Nat := (String.ofList t).utf8ByteSize

/-- Where the parenthesis that closes a group stands in the text behind the one that opens it,
in bytes from its start. -/
def closingOffset? (body : Text) : Option Nat :=
  (splitClosing 0 body).map fun (inner, _) => byteLength inner

/-- The text inside of a group that starts `t` and is not empty, and the text behind it. -/
def group? : Text → Option (Text × Text)
  | '(' :: body => (splitClosing 0 body).filter fun (inner, _) => inner ≠ []
  | _ => none

/-- What a text is cut into. -/
inductive Piece where
  /-- A character outside of all root groups. -/
  | plain (c : Char)
  /-- A root group, with the text inside of it. -/
  | root (inner : Text)
deriving DecidableEq, Repr

theorem eq_of_splitClosing {opened : Nat} {t inner rest : Text}
    (h : splitClosing opened t = some (inner, rest)) : t = inner ++ ')' :: rest := by
  induction t generalizing opened inner with
  | nil => simp [splitClosing] at h
  | cons c t ih =>
    rw [splitClosing] at h
    split at h
    · rename_i hc
      obtain ⟨rfl, rfl⟩ := Prod.mk.inj (Option.some.inj h)
      rw [hc.1, List.nil_append]
    · obtain ⟨⟨i, r⟩, hi, hr⟩ := Option.map_eq_some_iff.1 h
      obtain ⟨rfl, rfl⟩ := Prod.mk.inj hr
      rw [ih hi, List.cons_append]

theorem eq_of_group? {t inner rest : Text} (h : group? t = some (inner, rest)) :
    t = '(' :: inner ++ ')' :: rest := by
  unfold group? at h
  split at h
  · rw [eq_of_splitClosing (Option.filter_eq_some_iff.1 h).1, List.cons_append]
  · cases h

/-- The pieces of a text, from left to right. -/
def pieces : Text → List Piece
  | [] => []
  | c :: t =>
    if c = rootSign then
      match _h : group? t with
      | some (inner, rest) => .root inner :: pieces rest
      | none => .plain c :: pieces t
    else .plain c :: pieces t
termination_by t => t.length
decreasing_by
  · rw [eq_of_group? _h]
    simp only [List.length_cons, List.length_append]
    omega
  · exact Nat.lt_succ_self _
  · exact Nat.lt_succ_self _

/-- The text inside of a root group has fewer root signs than the whole. -/
theorem count_lt_of_mem_pieces {t inner : Text} (h : .root inner ∈ pieces t) :
    inner.count rootSign < t.count rootSign := by
  fun_induction pieces t with
  | case1 => cases h
  | case2 t i r hg ih =>
    rw [eq_of_group? hg]
    simp only [List.cons_append, List.count_cons_self, List.count_append,
      List.count_cons_of_ne (show ('(' : Char) ≠ rootSign by decide),
      List.count_cons_of_ne (show (')' : Char) ≠ rootSign by decide)]
    rcases List.mem_cons.1 h with h | h
    · cases h
      omega
    · have := ih h
      omega
  | case3 t hg ih =>
    rcases List.mem_cons.1 h with h | h
    · cases h
    · rw [List.count_cons_self]
      exact Nat.lt_succ_of_lt (ih h)
  | case4 c t hc ih =>
    rcases List.mem_cons.1 h with h | h
    · cases h
    · rw [List.count_cons_of_ne hc]
      exact ih h

end Expression

end DeskCalculator
