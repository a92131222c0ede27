import KwaaiNetMap.Geoip.IpAddr
import Mathlib.Data.Nat.Digits.Defs

/-!
`parse_print`: whatever address is printed, its text reads as that address. The numbers come first,
then the dotted quad, then the groups of an IPv6 address around its run of zeros.
-/

namespace KwaaiNetMap.IpAddr

/-! ### Numbers -/

def Ends (radix : Nat) (rest : List Char) : Prop := ∀ c ∈ rest.head?, digitValue radix c = none

theorem digitValue_digitChar {radix d : Nat} (small : d < radix) (hex : radix ≤ 16) :
    digitValue radix d.digitChar = some d := by
  have read : ∀ e : Fin 16, digitValue 16 e.val.digitChar = some e.val := by decide
  have value := read ⟨d, by omega⟩
  unfold digitValue at value ⊢
  rw [Option.filter_eq_some_iff] at value ⊢
  exact ⟨value.1, by simpa using small⟩

theorem filterMap_digitValue {radix : Nat} (hex : radix ≤ 16) {ds : List Nat}
    (small : ∀ d ∈ ds, d < radix) : (ds.map Nat.digitChar).filterMap (digitValue radix) = ds := by
  induction ds with
  | nil => rfl
  | cons d ds ih =>
    rw [List.map_cons, List.filterMap_cons_some (digitValue_digitChar (small d (by simp)) hex),
      ih fun e member => small e (List.mem_cons_of_mem d member)]

theorem toDigits_eq_map {radix : Nat} (two : 1 < radix) (n : Nat) :
    ∃ ds : List Nat, Nat.toDigits radix n = ds.map Nat.digitChar ∧ (∀ d ∈ ds, d < radix) ∧
      ds.foldl (fun acc d => acc * radix + d) 0 = n ∧ (ds.head? = some 0 → ds = [0]) := by
  induction n using Nat.strongRecOn with
  | ind n ih =>
    by_cases small : n < radix
    · refine ⟨[n], by rw [Nat.toDigits_of_lt_base small]; rfl, by simpa using small, by simp, ?_⟩
      intro zero
      rw [Option.some.inj zero]
    · have fewer : n / radix < n := Nat.div_lt_self (by omega) two
      obtain ⟨ds, digits, inRange, worth, leads⟩ := ih (n / radix) fewer
      have positive : 0 < n / radix := Nat.div_pos (by omega) (by omega)
      refine ⟨ds ++ [n % radix], ?_, ?_, ?_, ?_⟩
      · rw [Nat.toDigits_of_base_le two (by omega), digits, List.map_append]
        rfl
      · intro d member
        rcases List.mem_append.mp member with early | last
        · exact inRange d early
        · rw [List.mem_singleton.mp last]
          exact Nat.mod_lt n (by omega)
      · rw [List.foldl_append, worth]
        exact Nat.div_add_mod' n radix
      · intro zero
        cases ds with
        | nil => simp only [List.foldl_nil] at worth; omega
        | cons d ds =>
          rw [leads zero] at worth
          simp at worth
          omega

theorem readNumber_digits {radix maxDigits maxValue : Nat} {allowZeroPrefix : Bool} {ds : List Nat}
    {rest : List Char} (hex : radix ≤ 16) (small : ∀ d ∈ ds, d < radix) (given : 0 < ds.length)
    (short : ds.length ≤ maxDigits) (leads : ds.head? = some 0 → ds = [0])
    (fits : ds.foldl (fun acc d => acc * radix + d) 0 ≤ maxValue) (ends : Ends radix rest) :
    readNumber radix maxDigits maxValue allowZeroPrefix (ds.map Nat.digitChar ++ rest) =
      some (ds.foldl (fun acc d => acc * radix + d) 0, rest) := by
  have front : (ds.map Nat.digitChar ++ rest).takeWhile (fun c => (digitValue radix c).isSome) =
      ds.map Nat.digitChar := by
    have stop : rest.takeWhile (fun c => (digitValue radix c).isSome) = [] := by
      cases rest with
      | nil => rfl
      | cons c rest => exact List.takeWhile_cons_of_neg (by rw [ends c rfl]; simp)
    rw [List.takeWhile_append_of_pos, stop, List.append_nil]
    intro c member
    obtain ⟨d, inside, rfl⟩ := List.mem_map.mp member
    rw [digitValue_digitChar (small d inside) hex]
    rfl
  have zeroLed : ¬((!allowZeroPrefix) = true ∧ ds.head? = some 0 ∧ ds.length > 1) := by
    rintro ⟨-, zero, long⟩
    rw [leads zero] at long
    exact absurd long (by simp)
  unfold readNumber
  simp only [front, filterMap_digitValue hex small]
  rw [if_neg (by omega), if_neg zeroLed, if_neg (by omega), List.drop_left' (by simp)]

theorem readNumber_toDigits {radix maxDigits n : Nat} {allowZeroPrefix : Bool} {rest : List Char}
    (maxValue : Nat) (two : 1 < radix) (hex : radix ≤ 16) (room : 0 < maxDigits)
    (short : n < radix ^ maxDigits) (fits : n ≤ maxValue) (ends : Ends radix rest) :
    readNumber radix maxDigits maxValue allowZeroPrefix (Nat.toDigits radix n ++ rest) = some (n, rest) := by
  have width : (Nat.toDigits radix n).length ≤ maxDigits := (Nat.length_toDigits_le_iff two room).mpr short
  have given : 0 < (Nat.toDigits radix n).length := Nat.length_toDigits_pos
  obtain ⟨ds, digits, small, worth, leads⟩ := toDigits_eq_map two n
  rw [digits, List.length_map] at width given
  rw [digits, readNumber_digits hex small given width leads (by rw [worth]; exact fits) ends, worth]

theorem readNumber_of_ends {radix maxDigits maxValue : Nat} {allowZeroPrefix : Bool} {text : List Char}
    (ends : Ends radix text) : readNumber radix maxDigits maxValue allowZeroPrefix text = none := by
  have front : text.takeWhile (fun c => (digitValue radix c).isSome) = [] := by
    cases text with
    | nil => rfl
    | cons c rest => exact List.takeWhile_cons_of_neg (by rw [ends c rfl]; simp)
  unfold readNumber
  simp [front]

theorem ends_nil {radix : Nat} : Ends radix [] := by
  intro c found
  cases found

theorem ends_colon {radix : Nat} {rest : List Char} : Ends radix (':' :: rest) := by
  intro c found
  obtain rfl := Option.some.inj found
  rfl

theorem ends_dot {radix : Nat} {rest : List Char} : Ends radix ('.' :: rest) := by
  intro c found
  obtain rfl := Option.some.inj found
  rfl

/-! ### Dotted quads -/

theorem printIpv4_toList (a b c d : UInt8) :
    (printIpv4 a b c d).toList = Nat.toDigits 10 a.toNat ++ '.' :: (Nat.toDigits 10 b.toNat ++
      '.' :: (Nat.toDigits 10 c.toNat ++ '.' :: Nat.toDigits 10 d.toNat)) := by
  have dot : (toString ".").toList = ['.'] := rfl
  unfold printIpv4
  simp [dot]

theorem readNumber_octet (a : UInt8) {rest : List Char} (ends : Ends 10 rest) :
    readNumber 10 3 255 false (Nat.toDigits 10 a.toNat ++ rest) = some (a.toNat, rest) := by
  have byte := a.toNat_lt
  exact readNumber_toDigits 255 (by omega) (by omega) (by omega) (by omega) (by omega) ends

theorem readIpv4_print (a b c d : UInt8) {rest : List Char} (ends : Ends 10 rest) :
    readIpv4 ((printIpv4 a b c d).toList ++ rest) = some ((a, b, c, d), rest) := by
  rw [printIpv4_toList]
  unfold readIpv4 readSeparated
  simp [readNumber_octet, ends, ends_dot]

theorem readNumber_rest {radix maxDigits maxValue n : Nat} {allowZeroPrefix : Bool} {text rest : List Char}
    (read : readNumber radix maxDigits maxValue allowZeroPrefix text = some (n, rest)) : rest ⊆ text := by
  unfold readNumber at read
  dsimp only at read
  split_ifs at read
  obtain ⟨-, rfl⟩ := Prod.mk.inj (Option.some.inj read)
  exact List.drop_subset _ _

theorem readIpv4_of_undotted {text : List Char} (undotted : '.' ∉ text) : readIpv4 text = none := by
  unfold readIpv4 readSeparated
  cases first : readNumber 10 3 255 false text with
  | none => simp [first]
  | some found =>
    obtain ⟨a, rest⟩ := found
    have inside := readNumber_rest first
    cases rest with
    | nil => simp [first]
    | cons c rest =>
      have other : c ≠ '.' := by
        rintro rfl
        exact undotted (inside List.mem_cons_self)
      simp [first, other]

/-! ### Groups -/

def groupsText (index : Nat) : List UInt16 → List Char
  | [] => []
  | group :: groups =>
    if index = 0 then printHex group ++ groupsText 1 groups
    else ':' :: (printHex group ++ groupsText (index + 1) groups)

theorem groupsText_succ (index : Nat) (groups : List UInt16) :
    groupsText (index + 1) groups = groups.flatMap (fun group => ':' :: printHex group) := by
  induction groups generalizing index with
  | nil => rfl
  | cons group groups ih =>
    rw [groupsText, if_neg (by omega), ih, List.flatMap_cons]
    rfl

theorem printSegments_eq (groups : List UInt16) : printSegments groups = groupsText 0 groups := by
  cases groups with
  | nil => rfl
  | cons group groups =>
    rw [groupsText, if_pos rfl, groupsText_succ]
    unfold printSegments
    induction groups generalizing group with
    | nil => simp
    | cons next groups ih =>
      have tail := ih next
      simp only [List.map_cons] at tail ⊢
      rw [List.intercalate_cons_cons, tail]
      simp

theorem printHex_undotted (group : UInt16) : '.' ∉ printHex group := by
  obtain ⟨ds, digits, small, -, -⟩ := toDigits_eq_map (show 1 < 16 by omega) group.toNat
  have other : ∀ e : Fin 16, e.val.digitChar ≠ '.' := by decide
  unfold printHex
  rw [digits, List.mem_map]
  rintro ⟨d, inside, dot⟩
  exact other ⟨d, small d inside⟩ dot

theorem groupsText_undotted (index : Nat) (groups : List UInt16) : '.' ∉ groupsText index groups := by
  induction groups generalizing index with
  | nil => simp [groupsText]
  | cons group groups ih =>
    unfold groupsText
    split <;> simp [printHex_undotted, ih]

def Stops (rest : List Char) : Prop := rest = [] ∨ ∃ more, rest = ':' :: ':' :: more

theorem Stops.ends {rest : List Char} (stops : Stops rest) : Ends 16 rest := by
  rcases stops with rfl | ⟨more, rfl⟩
  · exact ends_nil
  · exact ends_colon

theorem readIpv4_of_ends {text : List Char} (ends : Ends 10 text) : readIpv4 text = none := by
  unfold readIpv4 readSeparated
  simp [readNumber_of_ends ends]

theorem readGroups_stops {limit slots : Nat} {rest : List Char} (stops : Stops rest) :
    readGroups limit slots rest = ([], false, rest) := by
  cases slots with
  | zero => rfl
  | succ slots =>
    have noQuad : readSeparated ':' (limit - (slots + 1)) readIpv4 rest = none := by
      unfold readSeparated
      rcases stops with rfl | ⟨more, rfl⟩
      · split
        · exact readIpv4_of_ends ends_nil
        · rfl
      · split
        · exact readIpv4_of_ends ends_colon
        · simpa using readIpv4_of_ends ends_colon
    have noGroup : readSeparated ':' (limit - (slots + 1)) (readNumber 16 4 65535 true) rest = none := by
      unfold readSeparated
      rcases stops with rfl | ⟨more, rfl⟩
      · split
        · exact readNumber_of_ends ends_nil
        · rfl
      · split
        · exact readNumber_of_ends ends_colon
        · simpa using readNumber_of_ends ends_colon
    unfold readGroups
    simp [noQuad, noGroup]

theorem readNumber_group (group : UInt16) {rest : List Char} (ends : Ends 16 rest) :
    readNumber 16 4 65535 true (printHex group ++ rest) = some (group.toNat, rest) := by
  have word := group.toNat_lt
  exact readNumber_toDigits 65535 (by omega) (by omega) (by omega) (by omega) (by omega) ends

theorem groupsText_ends {index : Nat} (later : 0 < index) (groups : List UInt16) {rest : List Char}
    (stops : Stops rest) : Ends 16 (groupsText index groups ++ rest) := by
  cases groups with
  | nil => exact stops.ends
  | cons group groups =>
    rw [groupsText, if_neg (by omega)]
    exact ends_colon

theorem readGroups_text (limit slots : Nat) (groups : List UInt16) {rest : List Char}
    (room : groups.length ≤ slots) (within : slots ≤ limit) (stops : Stops rest) (undotted : '.' ∉ rest) :
    readGroups limit slots (groupsText (limit - slots) groups ++ rest) = (groups, false, rest) := by
  induction groups generalizing slots with
  | nil => exact readGroups_stops stops
  | cons group groups ih =>
    obtain ⟨slots, rfl⟩ : ∃ fewer, slots = fewer + 1 := ⟨slots - 1, by simp at room; omega⟩
    have next : limit - slots = limit - (slots + 1) + 1 := by omega
    have tail := ih slots (by simpa using room) (by omega)
    rw [next] at tail
    have ends := groupsText_ends (Nat.succ_pos (limit - (slots + 1))) groups stops
    have dots : '.' ∉ printHex group ++ (groupsText (limit - (slots + 1) + 1) groups ++ rest) := by
      simp [printHex_undotted, groupsText_undotted, undotted]
    have noQuad : readSeparated ':' (limit - (slots + 1)) readIpv4
        (groupsText (limit - (slots + 1)) (group :: groups) ++ rest) = none := by
      unfold readSeparated groupsText
      by_cases first : limit - (slots + 1) = 0
      · rw [first] at dots ⊢
        simpa using readIpv4_of_undotted dots
      · simpa [first] using readIpv4_of_undotted dots
    have one : readSeparated ':' (limit - (slots + 1)) (readNumber 16 4 65535 true)
        (groupsText (limit - (slots + 1)) (group :: groups) ++ rest) =
          some (group.toNat, groupsText (limit - (slots + 1) + 1) groups ++ rest) := by
      unfold readSeparated
      rw [groupsText]
      by_cases first : limit - (slots + 1) = 0
      · rw [first] at ends ⊢
        simpa using readNumber_group group ends
      · simpa [first] using readNumber_group group ends
    unfold readGroups
    simp only [noQuad, one, ite_self, tail]
    simp

/-! ### The run of zeros -/

def zeroStep (state : (Nat × Nat) × (Nat × Nat)) (item : UInt16 × Nat) : (Nat × Nat) × (Nat × Nat) :=
  let (longest, current) := state
  if item.1 = 0 then
    let current := if current.2 = 0 then (item.2, 1) else (current.1, current.2 + 1)
    (if current.2 > longest.2 then current else longest, current)
  else (longest, (0, 0))

/-- The segments of the run are zeros, and it lies within the first `seen`. -/
def ZeroRun (segments : List UInt16) (seen : Nat) (found : Nat × Nat) : Prop :=
  found.1 + found.2 ≤ seen ∧ ∀ i, found.1 ≤ i → i < found.1 + found.2 → segments[i]? = some 0

theorem ZeroRun.later {segments : List UInt16} {seen : Nat} {found : Nat × Nat}
    (run : ZeroRun segments seen found) : ZeroRun segments (seen + 1) found :=
  ⟨Nat.le_succ_of_le run.1, run.2⟩

theorem foldl_zeroStep {segments : List UInt16} (before after : List UInt16)
    (whole : segments = before ++ after) (longest current : Nat × Nat)
    (best : ZeroRun segments before.length longest) (open_ : ZeroRun segments before.length current)
    (touches : current.2 ≠ 0 → current.1 + current.2 = before.length) :
    ZeroRun segments segments.length ((after.zipIdx before.length).foldl zeroStep (longest, current)).1 := by
  induction after generalizing before longest current with
  | nil =>
    rw [List.append_nil] at whole
    rw [whole] at best ⊢
    exact best
  | cons segment after ih =>
    have here : segments[before.length]? = some segment := by rw [whole]; simp
    have shorter : segments = (before ++ [segment]) ++ after := by rw [whole]; simp
    have step := ih (before ++ [segment]) shorter
    rw [List.length_append, List.length_singleton] at step
    rw [List.zipIdx_cons, List.foldl_cons, zeroStep]
    by_cases zero : segment = 0
    · rw [zero] at here
      have grown : ZeroRun segments (before.length + 1)
          (if current.2 = 0 then (before.length, 1) else (current.1, current.2 + 1)) := by
        split
        · refine ⟨le_rfl, fun i low high => ?_⟩
          obtain rfl : i = before.length := by dsimp only at low high; omega
          exact here
        · rename_i some_
          have edge := touches some_
          refine ⟨by dsimp only; omega, fun i low high => ?_⟩
          dsimp only at low high
          by_cases last : i = before.length
          · rw [last]; exact here
          · exact open_.2 i low (by omega)
      dsimp only
      rw [if_pos zero]
      apply step
      · by_cases longer : (if current.2 = 0 then (before.length, 1) else (current.1, current.2 + 1)).2 > longest.2
        · rw [if_pos longer]
          exact grown
        · rw [if_neg longer]
          exact best.later
      · exact grown
      · intro _
        split
        · rfl
        · rename_i some_
          have edge := touches some_
          dsimp only
          omega
    · dsimp only
      rw [if_neg zero]
      exact step _ _ best.later ⟨Nat.zero_le _, fun i low high => absurd high (by simp)⟩ (fun some_ => absurd rfl some_)

theorem longestZeros_run (segments : List UInt16) :
    ZeroRun segments segments.length (longestZeros segments) := by
  have empty : ZeroRun segments 0 (0, 0) := ⟨le_rfl, fun i low high => absurd high (by simp)⟩
  exact foldl_zeroStep [] segments rfl (0, 0) (0, 0) empty empty (fun some_ => absurd rfl some_)

theorem ZeroRun.restored {segments : List UInt16} {start len : Nat}
    (run : ZeroRun segments segments.length (start, len)) :
    segments.take start ++ List.replicate len 0 ++ segments.drop (start + len) = segments := by
  obtain ⟨inside, zeros⟩ := run
  dsimp only at inside zeros
  have middle : (segments.drop start).take len = List.replicate len 0 := by
    apply List.eq_replicate_iff.mpr
    refine ⟨by simp; omega, fun segment member => ?_⟩
    obtain ⟨i, bound, rfl⟩ := List.mem_iff_getElem.mp member
    simp only [List.length_take, List.length_drop] at bound
    have zero := zeros (start + i) (by omega) (by omega)
    rw [List.getElem_take, List.getElem_drop]
    exact (List.getElem?_eq_some_iff.mp zero).2
  rw [← middle, List.append_assoc, ← List.drop_drop, List.take_append_drop, List.take_append_drop]

/-! ### Whole addresses -/

theorem ofSegments_segments (addr : Ipv6Addr) : ofSegments addr.segments = some addr := by
  unfold ofSegments
  rw [dif_pos addr.size]

theorem readIpv6_full (addr : Ipv6Addr) : readIpv6 (printSegments addr.segments) = some (addr, []) := by
  have groups : readGroups 8 8 (printSegments addr.segments) = (addr.segments, false, []) := by
    have text := readGroups_text 8 8 addr.segments addr.size.le le_rfl (Or.inl rfl) (by simp)
    rwa [List.append_nil, ← printSegments_eq] at text
  unfold readIpv6
  simp [groups, addr.size, ofSegments_segments]

theorem readIpv6_zeros (addr : Ipv6Addr) {start len : Nat} (long : 1 < len)
    (run : ZeroRun addr.segments addr.segments.length (start, len)) :
    readIpv6 (printSegments (addr.segments.take start) ++ [':', ':'] ++
      printSegments (addr.segments.drop (start + len))) = some (addr, []) := by
  have size := addr.size
  have inside : start + len ≤ 8 := by have := run.1; rw [size] at this; exact this
  have restored := run.restored
  have head : (addr.segments.take start).length = start := by rw [List.length_take]; omega
  have tail : (addr.segments.drop (start + len)).length = 8 - start - len := by rw [List.length_drop]; omega
  have front : readGroups 8 8 (printSegments (addr.segments.take start) ++ [':', ':'] ++
      printSegments (addr.segments.drop (start + len))) =
        (addr.segments.take start, false, ':' :: ':' :: printSegments (addr.segments.drop (start + len))) := by
    have undotted : '.' ∉ ':' :: ':' :: printSegments (addr.segments.drop (start + len)) := by
      simp [printSegments_eq, groupsText_undotted]
    have text := readGroups_text 8 8 (addr.segments.take start) (by omega) le_rfl (Or.inr ⟨_, rfl⟩) undotted
    rw [Nat.sub_self, ← printSegments_eq] at text
    rw [List.append_assoc]
    exact text
  have back : readGroups (8 - (start + 1)) (8 - (start + 1))
      (printSegments (addr.segments.drop (start + len))) = (addr.segments.drop (start + len), false, []) := by
    have text := readGroups_text (8 - (start + 1)) (8 - (start + 1)) (addr.segments.drop (start + len)) (by omega)
      le_rfl (Or.inl rfl) (by simp)
    rwa [List.append_nil, Nat.sub_self, ← printSegments_eq] at text
  have zeros : 8 - start - (8 - start - len) = len := by omega
  unfold readIpv6
  simp only [front, head, back, tail, zeros, restored, ofSegments_segments]
  simp only [Nat.ne_of_lt (show start < 8 by omega), if_false, Bool.false_eq_true]
  rfl

theorem joined_octets (word : UInt16) :
    (word >>> 8).toUInt8.toUInt16 * 256 + word.toUInt8.toUInt16 = word := by
  have bound := word.toNat_lt
  apply UInt16.toNat_inj.mp
  simp [Nat.shiftRight_eq_div_pow]
  omega

theorem readGroups_mapped (a b c d : UInt8) :
    readGroups 7 7 ("ffff:".toList ++ (printIpv4 a b c d).toList) =
      ([0xffff, a.toUInt16 * 256 + b.toUInt16, c.toUInt16 * 256 + d.toUInt16], true, []) := by
  have quad : readIpv4 (printIpv4 a b c d).toList = some ((a, b, c, d), []) := by
    simpa using readIpv4_print a b c d ends_nil
  have noQuad : readIpv4 ("ffff:".toList ++ (printIpv4 a b c d).toList) = none := by
    apply readIpv4_of_ends
    intro f found
    obtain rfl := Option.some.inj found
    rfl
  have word : readNumber 16 4 65535 true ("ffff:".toList ++ (printIpv4 a b c d).toList) =
      some (65535, ':' :: (printIpv4 a b c d).toList) :=
    readNumber_group 0xffff ends_colon
  have first : readSeparated ':' 0 (readNumber 16 4 65535 true)
      ("ffff:".toList ++ (printIpv4 a b c d).toList) = some (65535, ':' :: (printIpv4 a b c d).toList) := word
  have second : readSeparated ':' 1 readIpv4 (':' :: (printIpv4 a b c d).toList) = some ((a, b, c, d), []) := by
    simp [readSeparated, quad]
  have rest : readGroups 7 6 (':' :: (printIpv4 a b c d).toList) =
      ([a.toUInt16 * 256 + b.toUInt16, c.toUInt16 * 256 + d.toUInt16], true, []) := by
    unfold readGroups
    simp [second]
  unfold readGroups
  simp only [Nat.reduceAdd, Nat.sub_self, first, rest]
  rw [show readSeparated ':' 0 readIpv4 ("ffff:".toList ++ (printIpv4 a b c d).toList) = none from noQuad]
  rfl

theorem readIpv6_mapped (addr : Ipv6Addr) {ab cd : UInt16}
    (mapped : addr.segments = [0, 0, 0, 0, 0, 0xffff, ab, cd]) :
    readIpv6 ("::ffff:" ++ printIpv4 (ab >>> 8).toUInt8 ab.toUInt8 (cd >>> 8).toUInt8 cd.toUInt8).toList =
      some (addr, []) := by
  have text : ("::ffff:" ++ printIpv4 (ab >>> 8).toUInt8 ab.toUInt8 (cd >>> 8).toUInt8 cd.toUInt8).toList =
      ':' :: ':' :: ("ffff:".toList ++
        (printIpv4 (ab >>> 8).toUInt8 ab.toUInt8 (cd >>> 8).toUInt8 cd.toUInt8).toList) := by
    rw [String.toList_append]
    rfl
  have front : readGroups 8 8 (':' :: ':' :: ("ffff:".toList ++
      (printIpv4 (ab >>> 8).toUInt8 ab.toUInt8 (cd >>> 8).toUInt8 cd.toUInt8).toList)) = _ :=
    readGroups_stops (Or.inr ⟨_, rfl⟩)
  have whole : ofSegments [0, 0, 0, 0, 0, 0xffff, ab, cd] = some addr := by
    rw [← mapped, ofSegments_segments]
  rw [text]
  unfold readIpv6
  rw [front]
  simp only [List.length_nil, Nat.reduceAdd, Nat.reduceSub, readGroups_mapped, joined_octets]
  simpa using whole

theorem parse_of_ipv4 {text : List Char} {a b c d : UInt8} (read : readIpv4 text = some ((a, b, c, d), [])) :
    parse text = some (v4 a b c d) := by
  unfold parse
  simp [read]

theorem parse_of_ipv6 {text : List Char} {addr : Ipv6Addr} (other : readIpv4 text = none)
    (read : readIpv6 text = some (addr, [])) : parse text = some (v6 addr) := by
  unfold parse
  simp [other, read]

theorem parse_print (ip : IpAddr) : parse ip.print.toList = some ip := by
  cases ip with
  | v4 a b c d =>
    apply parse_of_ipv4
    have read := readIpv4_print a b c d ends_nil
    rwa [List.append_nil] at read
  | v6 addr =>
    unfold print
    dsimp only
    split
    · rename_i ab cd mapped
      refine parse_of_ipv6 (readIpv4_of_ends ?_) (readIpv6_mapped addr mapped)
      rw [String.toList_append]
      exact ends_colon
    · split
      · rename_i long
        rw [String.toList_ofList]
        refine parse_of_ipv6 (readIpv4_of_undotted ?_) (readIpv6_zeros addr long (longestZeros_run addr.segments))
        simp [printSegments_eq, groupsText_undotted]
      · rw [String.toList_ofList]
        refine parse_of_ipv6 (readIpv4_of_undotted ?_) (readIpv6_full addr)
        rw [printSegments_eq]
        exact groupsText_undotted 0 addr.segments

end KwaaiNetMap.IpAddr
