import Mathlib.Algebra.Ring.Nat
import Mathlib.Data.List.Basic
import Mathlib.Data.List.Infix

/-!
Texts are lists of characters. A byte offset may be cut at exactly when some prefix of the text
takes that many bytes (`sliceFrom_eq_some`).
-/

namespace Text

def byteLen (cs : List Char) : Nat := (cs.map Char.utf8Size).sum

@[simp] theorem byteLen_nil : byteLen [] = 0 := rfl

@[simp] theorem byteLen_cons (c : Char) (cs : List Char) : byteLen (c :: cs) = c.utf8Size + byteLen cs := by
  simp [byteLen]

/-- The text from byte `n` on; absent past the end and inside a character. -/
def sliceFrom : List Char → Nat → Option (List Char)
  | [], n => if n = 0 then some [] else none
  | c :: cs, n =>
    if n = 0 then some (c :: cs)
    else if c.utf8Size ≤ n then sliceFrom cs (n - c.utf8Size)
    else none

def IsBoundary (cs : List Char) (n : Nat) : Prop := ∃ before after, cs = before ++ after ∧ byteLen before = n

theorem sliceFrom_eq_some (cs : List Char) (n : Nat) (after : List Char) :
    sliceFrom cs n = some after ↔ ∃ before, cs = before ++ after ∧ byteLen before = n := by
  induction cs generalizing n with
  | nil =>
    unfold sliceFrom
    constructor
    · intro h
      split at h
      · rename_i zero
        obtain rfl := Option.some.inj h
        exact ⟨[], rfl, zero.symm⟩
      · cases h
    · rintro ⟨before, whole, size⟩
      obtain ⟨rfl, rfl⟩ := List.append_eq_nil_iff.mp whole.symm
      exact if_pos size.symm
  | cons c cs ih =>
    unfold sliceFrom
    have wide := c.utf8Size_pos
    by_cases zero : n = 0
    · rw [if_pos zero]
      constructor
      · intro h
        exact ⟨[], Option.some.inj h, zero.symm⟩
      · rintro ⟨before, whole, size⟩
        cases before with
        | nil => rw [whole]; rfl
        | cons b before => rw [byteLen_cons] at size; have := b.utf8Size_pos; omega
    · rw [if_neg zero]
      by_cases fits : c.utf8Size ≤ n
      · rw [if_pos fits, ih]
        constructor
        · rintro ⟨before, whole, size⟩
          exact ⟨c :: before, by rw [whole]; rfl, by rw [byteLen_cons]; omega⟩
        · rintro ⟨before, whole, size⟩
          cases before with
          | nil => exact absurd size.symm zero
          | cons b before =>
            obtain ⟨rfl, rest⟩ := List.cons.inj whole
            exact ⟨before, rest, by rw [byteLen_cons] at size; omega⟩
      · rw [if_neg fits]
        constructor
        · intro h
          cases h
        · rintro ⟨before, whole, size⟩
          cases before with
          | nil => exact absurd size.symm zero
          | cons b before =>
            obtain ⟨rfl, _⟩ := List.cons.inj whole
            rw [byteLen_cons] at size
            omega

theorem sliceFrom_isSome (cs : List Char) (n : Nat) : (sliceFrom cs n).isSome = true ↔ IsBoundary cs n := by
  rw [Option.isSome_iff_exists]
  constructor
  · rintro ⟨after, cut⟩
    obtain ⟨before, whole, size⟩ := (sliceFrom_eq_some cs n after).mp cut
    exact ⟨before, after, whole, size⟩
  · rintro ⟨before, after, whole, size⟩
    exact ⟨after, (sliceFrom_eq_some cs n after).mpr ⟨before, whole, size⟩⟩

instance (cs : List Char) (n : Nat) : Decidable (IsBoundary cs n) :=
  decidable_of_iff _ (sliceFrom_isSome cs n)

/-! ### Search -/

def splitOnce (pat : List Char) : List Char → Option (List Char × List Char)
  | [] => if pat = [] then some ([], []) else none
  | c :: cs =>
    if pat.isPrefixOf (c :: cs) then some ([], (c :: cs).drop pat.length)
    else (splitOnce pat cs).map (fun parts => (c :: parts.1, parts.2))

def rsplitOnce (pat cs : List Char) : Option (List Char × List Char) :=
  (splitOnce pat.reverse cs.reverse).map (fun parts => (parts.2.reverse, parts.1.reverse))

def contains (pat cs : List Char) : Bool := (splitOnce pat cs).isSome

def secondPiece (pat cs : List Char) : Option (List Char) :=
  (splitOnce pat cs).map (fun parts => ((splitOnce pat parts.2).map Prod.fst).getD parts.2)

def trimEnd (c : Char) (cs : List Char) : List Char := (cs.reverse.dropWhile (· == c)).reverse

end Text
