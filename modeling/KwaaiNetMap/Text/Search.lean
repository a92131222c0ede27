import KwaaiNetMap.Text.Slice
import Mathlib.Data.List.DropRight

/-!
`splitOnce` cuts a text where its separator first stands (`splitOnce_eq_some`), `rsplitOnce` where it last
stands (`rsplitOnce_eq_some`). A separator stands before `before.length` only inside `before` and the
separator's own front, so cutting a written text needs no look at what follows (`splitOnce_append`). A text
trimmed of a separator at both ends has a last segment that is not empty (`lastSegment_filled`).
-/

namespace Text

theorem isPrefixOf_iff (pat cs : List Char) : pat.isPrefixOf cs = true ↔ ∃ after, cs = pat ++ after := by
  rw [List.isPrefixOf_iff_prefix]
  exact ⟨fun ⟨after, whole⟩ => ⟨after, whole.symm⟩, fun ⟨after, whole⟩ => ⟨after, whole.symm⟩⟩

theorem splitOnce_eq_some {pat cs before after : List Char} :
    splitOnce pat cs = some (before, after) ↔
      cs = before ++ pat ++ after ∧
        ∀ before' after', cs = before' ++ pat ++ after' → before.length ≤ before'.length := by
  induction cs generalizing before with
  | nil =>
    unfold splitOnce
    constructor
    · intro cut
      split at cut
      · rename_i empty
        obtain ⟨rfl, rfl⟩ := Prod.mk.inj (Option.some.inj cut)
        exact ⟨by simp [empty], fun _ _ _ => Nat.zero_le _⟩
      · cases cut
    · rintro ⟨whole, -⟩
      obtain ⟨front, rfl⟩ := List.append_eq_nil_iff.mp whole.symm
      obtain ⟨rfl, rfl⟩ := List.append_eq_nil_iff.mp front
      rfl
  | cons c cs ih =>
    unfold splitOnce
    by_cases here : pat.isPrefixOf (c :: cs) = true
    · rw [if_pos here]
      obtain ⟨rest, whole⟩ := (isPrefixOf_iff pat (c :: cs)).mp here
      constructor
      · intro cut
        obtain ⟨rfl, rfl⟩ := Prod.mk.inj (Option.some.inj cut)
        exact ⟨by rw [whole]; simp, fun _ _ _ => Nat.zero_le _⟩
      · rintro ⟨split, first⟩
        have none := first [] rest whole
        obtain rfl := List.length_eq_zero_iff.mp (Nat.le_zero.mp none)
        rw [split]
        simp
    · rw [if_neg here, Option.map_eq_some_iff]
      have later : ∀ before' after', c :: cs = before' ++ pat ++ after' →
          ∃ tail, before' = c :: tail ∧ cs = tail ++ pat ++ after' := by
        intro before' after' split
        cases before' with
        | nil => exact absurd ((isPrefixOf_iff pat (c :: cs)).mpr ⟨after', split⟩) here
        | cons b tail =>
          obtain ⟨rfl, rest⟩ := List.cons.inj split
          exact ⟨tail, rfl, rest⟩
      constructor
      · rintro ⟨⟨tail, rest⟩, cut, same⟩
        obtain ⟨rfl, rfl⟩ := Prod.mk.inj same
        obtain ⟨split, first⟩ := ih.mp cut
        refine ⟨by rw [split]; rfl, fun before' after' other => ?_⟩
        obtain ⟨tail', rfl, rest'⟩ := later before' after' other
        exact Nat.succ_le_succ (first tail' after' rest')
      · rintro ⟨split, first⟩
        obtain ⟨tail, rfl, rest⟩ := later before after split
        refine ⟨(tail, after), ih.mpr ⟨rest, fun before' after' other => ?_⟩, rfl⟩
        exact Nat.le_of_succ_le_succ (first (c :: before') after' (by rw [other]; rfl))

theorem splitOnce_isSome (pat cs : List Char) : (splitOnce pat cs).isSome = true ↔ pat <:+: cs := by
  induction cs with
  | nil =>
    unfold splitOnce
    by_cases empty : pat = []
    · simp [empty]
    · simp [empty]
  | cons c cs ih =>
    unfold splitOnce
    by_cases here : pat.isPrefixOf (c :: cs) = true
    · rw [if_pos here]
      exact ⟨fun _ => (List.isPrefixOf_iff_prefix.mp here).isInfix, fun _ => rfl⟩
    · rw [if_neg here, Option.isSome_map, ih, List.infix_cons_iff]
      exact ⟨Or.inr, fun either => either.resolve_left fun front => here (List.isPrefixOf_iff_prefix.mpr front)⟩

theorem contains_iff (pat cs : List Char) : contains pat cs = true ↔ pat <:+: cs := splitOnce_isSome pat cs

theorem splitOnce_eq_none (pat cs : List Char) : splitOnce pat cs = none ↔ ¬ pat <:+: cs := by
  rw [← splitOnce_isSome]
  simp

theorem rsplitOnce_eq_some {pat cs before after : List Char} :
    rsplitOnce pat cs = some (before, after) ↔
      cs = before ++ pat ++ after ∧
        ∀ before' after', cs = before' ++ pat ++ after' → after.length ≤ after'.length := by
  have turned (a b : List Char) : cs.reverse = b.reverse ++ pat.reverse ++ a.reverse ↔ cs = a ++ pat ++ b := by
    rw [← List.reverse_inj]
    simp
  unfold rsplitOnce
  rw [Option.map_eq_some_iff]
  constructor
  · rintro ⟨⟨back, front⟩, cut, same⟩
    obtain ⟨rfl, rfl⟩ := Prod.mk.inj same
    obtain ⟨split, first⟩ := splitOnce_eq_some.mp cut
    refine ⟨(turned _ _).mp (by simpa using split), fun before' after' other => ?_⟩
    simpa using first after'.reverse before'.reverse ((turned _ _).mpr other)
  · rintro ⟨split, last⟩
    refine ⟨(after.reverse, before.reverse), splitOnce_eq_some.mpr ⟨(turned _ _).mpr split, ?_⟩, by simp⟩
    intro front back other
    rw [List.length_reverse]
    simpa using last back.reverse front.reverse ((turned _ _).mp (by simpa using other))

/-! ### Cutting what was written -/

theorem mem_of_suffix_le {c : Char} {cs after after' : List Char} (whole : after <:+ cs)
    (tail : c :: after' <:+ cs) (short : after'.length < after.length) : c ∈ after :=
  (List.suffix_of_suffix_length_le tail whole short).subset List.mem_cons_self

theorem mem_of_prefix_le {c : Char} {cs before before' : List Char} (whole : before <+: cs)
    (front : before' ++ [c] <+: cs) (short : before'.length < before.length) : c ∈ before :=
  (List.prefix_of_prefix_length_le front whole (by simp; omega)).subset (by simp)

theorem splitOnce_append {pat : List Char} (filled : pat ≠ []) (before after : List Char) :
    splitOnce pat (before ++ pat ++ after) = some (before, after) ↔ ¬ pat <:+: before ++ pat.dropLast := by
  obtain ⟨front, last, rfl⟩ := (List.eq_nil_or_concat pat).resolve_left filled
  rw [splitOnce_eq_some, List.concat_eq_append, List.dropLast_concat]
  constructor
  · rintro ⟨-, first⟩ ⟨before', mid, early⟩
    have there : before ++ (front ++ [last]) ++ after = before' ++ (front ++ [last]) ++ (mid ++ [last] ++ after) := by
      rw [← List.append_assoc before, ← early]
      simp
    have sizes := congrArg List.length early
    have bound := first before' _ there
    simp only [List.length_append, List.length_singleton] at sizes
    omega
  · intro absent
    refine ⟨rfl, fun before' after' other => ?_⟩
    by_contra early
    have other_front : before' ++ (front ++ [last]) <+: before ++ (front ++ [last]) ++ after := ⟨after', other.symm⟩
    have this_front : before ++ front <+: before ++ (front ++ [last]) ++ after := ⟨[last] ++ after, by simp⟩
    have nested : before' ++ (front ++ [last]) <+: before ++ front := by
      refine List.prefix_of_prefix_length_le other_front this_front ?_
      simp only [List.length_append, List.length_singleton]
      omega
    exact absent (List.IsInfix.trans ⟨before', [], by simp⟩ nested.isInfix)

theorem splitOnce_of_fresh {c : Char} {before : List Char} (fresh : c ∉ before) (front after : List Char) :
    splitOnce (c :: front) (before ++ c :: front ++ after) = some (before, after) := by
  refine splitOnce_eq_some.mpr ⟨rfl, fun before' after' other => ?_⟩
  by_contra early
  have this_front : before <+: before ++ c :: front ++ after := ⟨c :: front ++ after, by simp⟩
  have other_front : before' ++ [c] <+: before ++ c :: front ++ after := ⟨front ++ after', by rw [other]; simp⟩
  exact fresh (mem_of_prefix_le this_front other_front (by omega))

theorem first_cut_unique {c : Char} {before before' after after' : List Char} (fresh : c ∉ before)
    (fresh' : c ∉ before') (same : before ++ c :: after = before' ++ c :: after') :
    before = before' ∧ after = after' := by
  have cut := splitOnce_of_fresh fresh [] after
  have cut' := splitOnce_of_fresh fresh' [] after'
  rw [List.append_assoc, List.singleton_append] at cut cut'
  rw [same, cut'] at cut
  obtain ⟨front, back⟩ := Prod.mk.inj (Option.some.inj cut)
  exact ⟨front.symm, back.symm⟩

theorem not_infix_of_fresh {c : Char} {cs : List Char} (fresh : c ∉ cs) (front : List Char) :
    ¬ c :: front <:+: cs := fun standing => fresh (standing.subset List.mem_cons_self)

theorem rsplitOnce_of_fresh {c : Char} {after : List Char} (fresh : c ∉ after) (before front : List Char) :
    rsplitOnce (front ++ [c]) (before ++ (front ++ [c]) ++ after) = some (before, after) := by
  refine rsplitOnce_eq_some.mpr ⟨rfl, fun before' after' other => ?_⟩
  by_contra late
  have this_tail : after <:+ before ++ (front ++ [c]) ++ after := ⟨before ++ (front ++ [c]), rfl⟩
  have other_tail : c :: after' <:+ before ++ (front ++ [c]) ++ after := ⟨before' ++ front, by rw [other]; simp⟩
  exact fresh (mem_of_suffix_le this_tail other_tail (by omega))

theorem last_cut_unique {c : Char} {before before' after after' : List Char} (fresh : c ∉ after)
    (fresh' : c ∉ after') (same : before ++ c :: after = before' ++ c :: after') :
    before = before' ∧ after = after' := by
  have cut := rsplitOnce_of_fresh fresh before []
  have cut' := rsplitOnce_of_fresh fresh' before' []
  rw [List.nil_append, List.append_assoc, List.singleton_append] at cut cut'
  rw [same, cut'] at cut
  obtain ⟨front, back⟩ := Prod.mk.inj (Option.some.inj cut)
  exact ⟨front.symm, back.symm⟩

theorem not_digit_not_mem_repr {c : Char} (other : c.isDigit = false) (n : Nat) : c ∉ (Nat.repr n).toList := by
  intro member
  rw [Nat.toList_repr] at member
  rw [Nat.isDigit_of_mem_toDigits (by decide) (by decide) member] at other
  cases other

theorem repr_inj {m n : Nat} (same : (Nat.repr m).toList = (Nat.repr n).toList) : m = n := by
  rw [Nat.toList_repr, Nat.toList_repr] at same
  rw [← Nat.ofDigitChars_ten_toDigits (n := m), same, Nat.ofDigitChars_ten_toDigits]

theorem numbered_inj {c : Char} (other : c.isDigit = false) {before before' : List Char} {m n : Nat}
    (same : before ++ c :: (Nat.repr m).toList = before' ++ c :: (Nat.repr n).toList) :
    before = before' ∧ m = n := by
  obtain ⟨front, back⟩ := last_cut_unique (not_digit_not_mem_repr other m) (not_digit_not_mem_repr other n) same
  exact ⟨front, repr_inj back⟩

theorem secondPiece_eq_some {c : Char} {front cs piece : List Char} (fresh : c ∉ piece) :
    secondPiece (c :: front) cs = some piece ↔
      ∃ before rest, cs = before ++ c :: front ++ piece ++ rest ∧
        ¬ c :: front <:+: before ++ (c :: front).dropLast ∧ (rest = [] ∨ c :: front <+: rest) := by
  unfold secondPiece
  rw [Option.map_eq_some_iff]
  constructor
  · rintro ⟨⟨before, tail⟩, cut, same⟩
    have whole := (splitOnce_eq_some.mp cut).1
    rw [whole] at cut
    have first := (splitOnce_append (List.cons_ne_nil c front) before tail).mp cut
    cases again : splitOnce (c :: front) tail with
    | none =>
      rw [again] at same
      exact ⟨before, [], by rw [whole, ← same]; simp, first, Or.inl rfl⟩
    | some parts =>
      obtain ⟨mid, tail'⟩ := parts
      rw [again] at same
      obtain rfl : mid = piece := same
      exact ⟨before, c :: front ++ tail', by rw [whole, (splitOnce_eq_some.mp again).1]; simp, first,
        Or.inr ⟨tail', rfl⟩⟩
  · rintro ⟨before, rest, rfl, first, ends⟩
    refine ⟨(before, piece ++ rest), ?_, ?_⟩
    · rw [List.append_assoc]
      exact (splitOnce_append (List.cons_ne_nil c front) before _).mpr first
    · rcases ends with rfl | ⟨tail, rfl⟩
      · rw [List.append_nil, (splitOnce_eq_none _ _).mpr (not_infix_of_fresh fresh front)]
        rfl
      · rw [← List.append_assoc, splitOnce_of_fresh fresh]
        rfl

/-! ### Separators that start a component

A separator whose first character does not come back in it stands on one side of any place that character
stands at.
-/

section
variable {c : Char} {word : List Char}

theorem prefix_of_prefix_append (single : c ∉ word) {before after : List Char} (front : word <+: before ++ c :: after) :
    word <+: before := by
  by_cases short : word.length ≤ before.length
  · exact List.prefix_of_prefix_length_le front (List.prefix_append before _) short
  · have reaches : before ++ [c] <+: word :=
      List.prefix_of_prefix_length_le ⟨after, by simp⟩ front (by simp; omega)
    exact absurd (reaches.subset (by simp)) single

theorem infix_append (single : c ∉ word) (before after : List Char) :
    c :: word <:+: before ++ c :: after ↔ c :: word <:+: before ∨ word <+: after ∨ c :: word <:+: after := by
  induction before with
  | nil =>
    rw [List.nil_append, List.infix_cons_iff, List.cons_prefix_cons]
    simp
  | cons d before ih =>
    rw [List.cons_append, List.infix_cons_iff, ih, List.infix_cons_iff]
    constructor
    · rintro (front | rest)
      · obtain ⟨rfl, tail⟩ := List.cons_prefix_cons.mp front
        exact Or.inl (Or.inl (List.cons_prefix_cons.mpr ⟨rfl, prefix_of_prefix_append single tail⟩))
      · exact rest.imp_left Or.inr
    · rintro ((front | early) | late)
      · exact Or.inl (front.trans (List.prefix_append (d :: before) (c :: after)))
      · exact Or.inr (Or.inl early)
      · exact Or.inr (Or.inr late)

end

/-! ### Trimming and segments -/

section
variable {c : Char} {cs : List Char}

theorem trimEnd_prefix (c : Char) (cs : List Char) : trimEnd c cs <+: cs := List.rdropWhile_prefix (· == c) cs

theorem trimEnd_last (c : Char) (cs : List Char) : ¬ [c] <:+ trimEnd c cs := by
  rintro ⟨front, ends⟩
  have again := List.rdropWhile_idempotent (· == c) cs
  rw [show cs.rdropWhile (· == c) = front ++ [c] from ends.symm,
    List.rdropWhile_concat_pos (· == c) front c (beq_self_eq_true c)] at again
  have short := (List.rdropWhile_prefix (· == c) front).length_le
  rw [again, List.length_append, List.length_singleton] at short
  omega

theorem trimEnd_cons {d : Char} (different : d ≠ c) (rest : List Char) :
    ∃ rest', trimEnd c (d :: rest) = d :: rest' := by
  cases trimmed : trimEnd c (d :: rest) with
  | nil =>
    have all := List.rdropWhile_eq_nil_iff.mp trimmed d List.mem_cons_self
    exact absurd (beq_iff_eq.mp all) different
  | cons b rest' =>
    obtain ⟨rfl, -⟩ := List.cons_prefix_cons.mp (trimmed ▸ trimEnd_prefix c (d :: rest))
    exact ⟨rest', rfl⟩

structure Trimmed (c : Char) (cs : List Char) : Prop where
  filled : cs ≠ []
  front : ¬ [c] <+: cs
  back : ¬ [c] <:+ cs

theorem trimmed_trimEnd_iff {d : Char} {rest : List Char} : Trimmed c (trimEnd c (d :: rest)) ↔ d ≠ c := by
  constructor
  · rintro trimmed rfl
    obtain ⟨b, rest', whole⟩ := List.exists_cons_of_ne_nil trimmed.filled
    have same := trimEnd_prefix d (d :: rest)
    rw [whole] at same
    obtain ⟨rfl, -⟩ := List.cons_prefix_cons.mp same
    exact trimmed.front (whole ▸ ⟨rest', rfl⟩)
  · intro different
    obtain ⟨rest', whole⟩ := trimEnd_cons different rest
    refine ⟨whole ▸ List.cons_ne_nil d rest', ?_, trimEnd_last c _⟩
    intro front
    rw [whole] at front
    exact different (List.cons_prefix_cons.mp front).1.symm

def LastSegment (c : Char) (cs segment : List Char) : Prop :=
  c ∉ segment ∧ (cs = segment ∨ ∃ before, cs = before ++ c :: segment)

def lastSegment (c : Char) (cs : List Char) : List Char := ((rsplitOnce [c] cs).map Prod.snd).getD cs

theorem lastSegment_spec (c : Char) (cs : List Char) : LastSegment c cs (lastSegment c cs) := by
  unfold lastSegment
  cases cut : rsplitOnce [c] cs with
  | none =>
    refine ⟨?_, Or.inl rfl⟩
    intro member
    have standing : [c] <:+: cs := (List.singleton_infix_iff c cs).mpr member
    obtain ⟨before, after, whole⟩ := standing
    rw [rsplitOnce, Option.map_eq_none_iff, splitOnce_eq_none] at cut
    refine cut ⟨after.reverse, before.reverse, ?_⟩
    rw [← whole]
    simp
  | some parts =>
    obtain ⟨before, segment⟩ := parts
    obtain ⟨whole, last⟩ := rsplitOnce_eq_some.mp cut
    refine ⟨?_, Or.inr ⟨before, by simpa using whole⟩⟩
    intro member
    obtain ⟨front, back, rfl⟩ := List.append_of_mem member
    have bound := last (before ++ [c] ++ front) back (by rw [whole]; simp)
    simp only [List.length_append, List.length_cons] at bound
    omega

theorem lastSegment_filled (trimmed : Trimmed c cs) : lastSegment c cs ≠ [] := by
  intro empty
  obtain ⟨-, same | ⟨before, ends⟩⟩ := lastSegment_spec c cs
  · exact trimmed.filled (same.trans empty)
  · rw [empty] at ends
    exact trimmed.back ⟨before, ends.symm⟩

end

def unlines (rows : List (List Char)) : List Char := rows.flatMap fun row => row ++ ['\n']

def lines (cs : List Char) : List (List Char) := (cs.splitOn '\n').dropLast

theorem lines_unlines {rows : List (List Char)} (single : ∀ row ∈ rows, '\n' ∉ row) : lines (unlines rows) = rows := by
  have pieces : (unlines rows).splitOn '\n' = rows ++ [[]] := by
    induction rows with
    | nil => rfl
    | cons row rows ih =>
      obtain ⟨here, later⟩ := List.forall_mem_cons.mp single
      rw [unlines, List.flatMap_cons, List.append_assoc, List.singleton_append,
        List.splitOn_append_cons_self_of_not_mem here, ← unlines, ih later, List.cons_append]
  rw [lines, pieces, List.dropLast_concat]

end Text
