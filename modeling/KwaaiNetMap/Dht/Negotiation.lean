import KwaaiNetMap.Dht.Value
import KwaaiNetMap.Numeric.Varint
import KwaaiNetMap.Text.Utf8

/-!
Negotiation messages under the relaxed rule for protocol names. A message comes back from its bytes unless it
proposes one of the three names that are messages of their own (`decode_encode_iff`).
-/

namespace KwaaiNetMap.Negotiation
open Numeric Text

def newline : UInt8 := 10

inductive ProtocolError where
  | invalidProtocol | invalidMessage | tooManyProtocols

/-- A protocol name: one line of text, and not an empty one. -/
@[ext] structure Protocol where
  name : String
  filled : utf8 name ≠ []
  singleLine : newline ∉ utf8 name

theorem newline_mem_iff (s : String) : newline ∈ utf8 s ↔ '\n' ∈ s.toList := by
  rw [mem_utf8_iff (by decide)]
  constructor
  · intro within
    obtain ⟨c, member, code⟩ := within
    have isNewline : c = '\n' := Char.toNat_inj.mp code
    exact isNewline ▸ member
  · intro member
    exact ⟨'\n', member, rfl⟩

namespace Protocol

def tryFromBytes (value : Bytes) : Except ProtocolError Protocol :=
  if h : value = [] ∨ newline ∈ value then .error .invalidProtocol
  else
    match read : ofUtf8? value with
    | none => .error .invalidProtocol
    | some name =>
      have bytes := utf8_ofUtf8? read
      .ok ⟨name, bytes ▸ fun empty => h (Or.inl empty), bytes ▸ fun within => h (Or.inr within)⟩

def tryFromStr (value : String) : Except ProtocolError Protocol :=
  if h : value = "" ∨ '\n' ∈ value.toList then .error .invalidProtocol
  else
    .ok ⟨value, fun empty => h (Or.inl (utf8_eq_nil.mp empty)),
      fun within => h (Or.inr ((newline_mem_iff value).mp within))⟩

def bytes (p : Protocol) : Bytes := utf8 p.name

end Protocol

inductive Message where
  | header
  | protocol (p : Protocol)
  | listProtocols
  | protocols (ps : List Protocol)
  | notAvailable

def msgMultistream : Bytes := utf8 "/multistream/1.0.0\n"
def msgProtocolNa : Bytes := utf8 "na\n"
def msgLs : Bytes := utf8 "ls\n"

def Protocol.line (p : Protocol) : Bytes := p.bytes ++ [newline]

def Protocol.listed (p : Protocol) : Bytes := encodeVarint p.line.length ++ p.line

namespace Message

def encode : Message → Bytes
  | header => msgMultistream
  | protocol p => p.line
  | listProtocols => msgLs
  | protocols ps => ps.flatMap Protocol.listed ++ [newline]
  | notAvailable => msgProtocolNa

/-- What a message says; an `ls` response is read upstream, by `lsResponse`. -/
def decode (lsResponse : Bytes → Except ProtocolError (List Protocol)) (msg : Bytes) :
    Except ProtocolError Message :=
  if msg = msgMultistream then .ok header
  else if msg = msgProtocolNa then .ok notAvailable
  else if msg = msgLs then .ok listProtocols
  -- a single line that is not one of the fixed messages
  else if msg.getLast? = some newline ∧ 1 < msg.length ∧ newline ∉ msg.dropLast then
    (Protocol.tryFromBytes msg.dropLast).map protocol
  else (lsResponse msg).map protocols

end Message

namespace Protocol

theorem tryFromBytes_bytes (p : Protocol) : tryFromBytes p.bytes = .ok p := by
  have accepted : ¬ (p.bytes = [] ∨ newline ∈ p.bytes) := not_or.mpr ⟨p.filled, p.singleLine⟩
  unfold tryFromBytes
  rw [dif_neg accepted]
  split
  · rename_i read
    cases read.symm.trans (ofUtf8?_utf8 p.name)
  · rename_i name read
    obtain rfl := Option.some.inj (read.symm.trans (ofUtf8?_utf8 p.name))
    rfl

end Protocol

/-! ### Which bytes compete -/

/-- The names whose line is a message of its own. -/
def reserved : List String := ["/multistream/1.0.0", "na", "ls"]

def Message.Reserved (m : Message) : Prop := ∃ p, m = .protocol p ∧ p.name ∈ reserved

theorem line_eq_iff (p : Protocol) (name : String) : p.line = utf8 name ++ [newline] ↔ p.name = name := by
  rw [Protocol.line, List.append_cancel_right_eq]
  exact ⟨utf8_injective, congrArg utf8⟩

theorem msgMultistream_eq : msgMultistream = utf8 "/multistream/1.0.0" ++ [newline] := by decide
theorem msgProtocolNa_eq : msgProtocolNa = utf8 "na" ++ [newline] := by decide
theorem msgLs_eq : msgLs = utf8 "ls" ++ [newline] := by decide

section
variable (lsResponse : Bytes → Except ProtocolError (List Protocol))

theorem decode_line {p : Protocol} (free : p.name ∉ reserved) :
    Message.decode lsResponse p.line = .ok (.protocol p) := by
  simp only [reserved, List.mem_cons, List.not_mem_nil, or_false, not_or] at free
  obtain ⟨notHeader, notNa, notLs⟩ := free
  have header : p.line ≠ msgMultistream := by rwa [ne_eq, msgMultistream_eq, line_eq_iff]
  have na : p.line ≠ msgProtocolNa := by rwa [ne_eq, msgProtocolNa_eq, line_eq_iff]
  have ls : p.line ≠ msgLs := by rwa [ne_eq, msgLs_eq, line_eq_iff]
  have front : p.line.dropLast = p.bytes := List.dropLast_concat
  have single : p.line.getLast? = some newline ∧ 1 < p.line.length ∧ newline ∉ p.line.dropLast := by
    refine ⟨List.getLast?_concat, ?_, front ▸ p.singleLine⟩
    rw [Protocol.line, List.length_append, List.length_singleton]
    exact Nat.lt_add_of_pos_left (List.length_pos_of_ne_nil p.filled)
  rw [Message.decode, if_neg header, if_neg na, if_neg ls, if_pos single, front, Protocol.tryFromBytes_bytes]
  rfl

theorem decode_line_reserved {p : Protocol} (taken : p.name ∈ reserved) :
    Message.decode lsResponse p.line = .ok .header ∨ Message.decode lsResponse p.line = .ok .notAvailable ∨
      Message.decode lsResponse p.line = .ok .listProtocols := by
  simp only [reserved, List.mem_cons, List.not_mem_nil, or_false] at taken
  rcases taken with named | named | named
  · have line := msgMultistream_eq ▸ (line_eq_iff p _).mpr named
    exact Or.inl (line ▸ rfl)
  · have line := msgProtocolNa_eq ▸ (line_eq_iff p _).mpr named
    exact Or.inr (Or.inl (line ▸ rfl))
  · have line := msgLs_eq ▸ (line_eq_iff p _).mpr named
    exact Or.inr (Or.inr (line ▸ rfl))

theorem decode_lines {msg : Bytes} (within : newline ∈ msg.dropLast) :
    Message.decode lsResponse msg = (lsResponse msg).map .protocols := by
  -- none of the fixed messages has
  have other {fixed : Bytes} (line : newline ∉ fixed.dropLast) : msg ≠ fixed := fun same => line (same ▸ within)
  have header : msg ≠ msgMultistream := other (by decide)
  have na : msg ≠ msgProtocolNa := other (by decide)
  have ls : msg ≠ msgLs := other (by decide)
  rw [Message.decode, if_neg header, if_neg na, if_neg ls, if_neg fun single => single.2.2 within]

theorem decode_protocols (ps : List Protocol) :
    Message.decode lsResponse (Message.encode (.protocols ps)) =
      (lsResponse (Message.encode (.protocols ps))).map .protocols := by
  cases ps with
  | nil => rfl
  | cons p ps =>
    apply decode_lines
    have ends : newline ∈ p.listed :=
      List.mem_append_right _ (List.mem_append_right _ List.mem_cons_self)
    rw [Message.encode, List.dropLast_concat, List.flatMap_cons]
    exact List.mem_append_left _ ends

end

theorem decode_encode {lsResponse : Bytes → Except ProtocolError (List Protocol)} {m : Message}
    (reads : ∀ ps, m = .protocols ps → lsResponse m.encode = .ok ps) (free : ¬ m.Reserved) :
    Message.decode lsResponse m.encode = .ok m := by
  cases m with
  | header => rfl
  | listProtocols => rfl
  | notAvailable => rfl
  | protocol p => exact decode_line lsResponse fun taken => free ⟨p, rfl, taken⟩
  | protocols ps =>
    rw [decode_protocols, reads ps rfl]
    rfl

/-- Exactly which messages come back from their bytes, where upstream reads the lists it is sent. -/
theorem decode_encode_iff (lsResponse : Bytes → Except ProtocolError (List Protocol)) (m : Message)
    (reads : ∀ ps, m = .protocols ps → lsResponse m.encode = .ok ps) :
    Message.decode lsResponse m.encode = .ok m ↔ ¬ m.Reserved := by
  constructor
  · intro back reserved
    obtain ⟨p, rfl, taken⟩ := reserved
    have line : Message.encode (.protocol p) = p.line := rfl
    rw [line] at back
    rcases decode_line_reserved lsResponse taken with read | read | read
    all_goals cases read.symm.trans back
  · exact decode_encode reads

/-- A node may name its handler as messages are named, and a proposal of it is then read as a refusal. -/
theorem refusal_proposed :
    ∃ p, Protocol.tryFromStr "na" = .ok p ∧
      ∀ lsResponse, Message.decode lsResponse (Message.encode (.protocol p)) = .ok .notAvailable := by
  refine ⟨⟨"na", by decide, by decide⟩, rfl, fun lsResponse => ?_⟩
  rfl

/-! ### Lists that are read back -/

/-- Listed names, `most` of them at most: the end of the list is looked for before another name is refused. -/
def readNames : Nat → Bytes → Except ProtocolError (List Protocol)
  | 0, remaining => if remaining = [newline] then .ok [] else .error .tooManyProtocols
  | most + 1, remaining =>
    if remaining = [newline] then .ok []
    else
      match decodeVarint remaining with
      | none => .error .invalidMessage
      | some (length, tail) =>
        if tail.length < length ∨ (tail.take length).getLast? ≠ some newline then .error .invalidMessage
        else do
          let p ← Protocol.tryFromBytes (tail.take length).dropLast
          let ps ← readNames most (tail.drop length)
          return p :: ps

theorem readNames_cons {most : Nat} {p : Protocol} {rest : Bytes} (more : rest ≠ []) :
    readNames (most + 1) (p.listed ++ rest) = (readNames most rest).map (p :: ·) := by
  have last : p.line.getLast? = some newline := List.getLast?_concat
  have front : p.line.dropLast = p.bytes := List.dropLast_concat
  have open' : p.listed ++ rest ≠ [newline] := by
    intro short
    have length := congrArg List.length short
    have inside : 1 ≤ p.line.length := by simp [Protocol.line]
    have after := List.length_pos_of_ne_nil more
    simp only [Protocol.listed, List.length_append, List.length_singleton] at length
    omega
  have read : decodeVarint (p.listed ++ rest) = some (p.line.length, p.line ++ rest) := by
    rw [Protocol.listed, List.append_assoc, decodeVarint_encodeVarint]
  have whole : ¬ ((p.line ++ rest).length < p.line.length ∨ p.line.getLast? ≠ some newline) := by
    simp [last]
  rw [readNames, if_neg open', read]
  simp only [List.take_left, List.drop_left]
  rw [if_neg whole, front, Protocol.tryFromBytes_bytes]
  cases readNames most rest <;> rfl

theorem readNames_encode {most : Nat} {ps : List Protocol} (few : ps.length ≤ most) :
    readNames most (Message.encode (.protocols ps)) = .ok ps := by
  induction ps generalizing most with
  | nil => cases most <;> rfl
  | cons p ps ih =>
    cases most with
    | zero => cases few
    | succ most =>
      have rest := ih (Nat.le_of_succ_le_succ few)
      have split : Message.encode (.protocols (p :: ps)) = p.listed ++ Message.encode (.protocols ps) := by
        rw [Message.encode, List.flatMap_cons, List.append_assoc]
        rfl
      rw [split, readNames_cons (by simp [Message.encode]), rest]
      rfl

theorem decode_encode_list :
    ∃ kad rpc, Protocol.tryFromStr "/kad/1.0.0" = .ok kad ∧ Protocol.tryFromStr "DHTProtocol.rpc_find" = .ok rpc ∧
      Message.decode (readNames 1000) (Message.encode (.protocols [kad, rpc])) = .ok (.protocols [kad, rpc]) := by
  refine ⟨⟨"/kad/1.0.0", by decide, by decide⟩, ⟨"DHTProtocol.rpc_find", by decide, by decide⟩, rfl, rfl, ?_⟩
  refine (decode_encode_iff (readNames 1000) (.protocols _) ?_).mpr (by rintro ⟨p, same, -⟩; cases same)
  intro ps same
  obtain rfl := Message.protocols.inj same
  exact readNames_encode (by decide)

def Message.names : Message → List Protocol
  | protocols ps => ps
  | _ => []

theorem encode_injective {m n : Message} (free : ¬ m.Reserved) (other : ¬ n.Reserved)
    (same : m.encode = n.encode) : m = n := by
  -- one reader, for lists as long as those of both
  let reader := readNames (m.names.length + n.names.length)
  have back {k : Message} (free : ¬ k.Reserved) (few : k.names.length ≤ m.names.length + n.names.length) :
      Message.decode reader k.encode = .ok k := by
    apply decode_encode _ free
    intro ps same
    subst same
    exact readNames_encode few
  have first := back free (by omega)
  have second := back other (by omega)
  rw [same] at first
  exact Except.ok.inj (first.symm.trans second)

end KwaaiNetMap.Negotiation
