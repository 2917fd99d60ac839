import Mathlib

/-! # Byte formats

A reader takes a value off the front of a byte string or fails. `Parses` says
which strings it takes: exactly the ones some writer produces for a value that
satisfies a condition. Read from right to left it is the round trip, from left
to right it is that nothing else is accepted. The rules follow the way readers
are put together, field by field with checks in between. -/
namespace KatanaRecomp.Lib.ByteFormat

abbrev Byte := BitVec 8

abbrev Reader (ε : Type) := StateT (List Byte) (Except ε)

/-- The reader takes off exactly what `write` puts in front for a `good` value. -/
def Parses {ε α : Type} (read : Reader ε α) (write : α → List Byte) (good : α → Prop) : Prop :=
  ∀ bytes value rest, read bytes = .ok (value, rest) ↔ bytes = write value ++ rest ∧ good value

/-! ## Little-endian words -/

/-- The low `count` bytes of a word, least significant first. -/
def littleEndian (count : Nat) {w : Nat} (value : BitVec w) : List Byte :=
  (List.range count).map fun byte => (value >>> (byte * 8)).setWidth 8

/-- The bytes of a word put back in place, the first of them `offset` bytes up. -/
def assemble (w : Nat) : Nat → List Byte → BitVec w
  | _, [] => 0
  | offset, byte :: bytes => byte.setWidth w <<< (offset * 8) ||| assemble w (offset + 1) bytes

/-- `count` bytes off the front. -/
def take {ε : Type} (truncated : ε) (count : Nat) : Reader ε (List Byte) := fun bytes =>
  if bytes.length < count then .error truncated else .ok (bytes.take count, bytes.drop count)

def word {ε : Type} (truncated : ε) (count w : Nat) : Reader ε (BitVec w) := do
  let bytes ← take truncated count
  pure (assemble w 0 bytes)

@[simp] theorem length_littleEndian {count w : Nat} (value : BitVec w) :
    (littleEndian count value).length = count := by
  simp [littleEndian]

theorem getLsbD_assemble {w : Nat} (bytes : List Byte) (offset i : Nat) (hi : i < w) :
    (assemble w offset bytes).getLsbD i =
      (decide (offset * 8 ≤ i) && (bytes.getD ((i - offset * 8) / 8) 0).getLsbD (i % 8)) := by
  induction bytes generalizing offset with
  | nil => simp [assemble]
  | cons byte bytes ih =>
    rw [assemble, BitVec.getLsbD_or, ih, BitVec.getLsbD_shiftLeft, BitVec.getLsbD_setWidth]
    rcases Nat.lt_or_ge i (offset * 8) with hbelow | hfrom
    · have hnext : ¬ (offset + 1) * 8 ≤ i := by omega
      simp [hbelow, hnext]
    rcases Nat.lt_or_ge i ((offset + 1) * 8) with hhere | habove
    · have hnext : ¬ (offset + 1) * 8 ≤ i := by omega
      have hbit : i - offset * 8 = i % 8 := by omega
      have hwide : i % 8 < w := lt_of_le_of_lt (Nat.mod_le i 8) hi
      simp [hi, hfrom, hnext, hbit, hwide, Nat.not_lt.mpr hfrom]
    · have hbyte : (i - offset * 8) / 8 = (i - (offset + 1) * 8) / 8 + 1 := by omega
      have hpast : byte.getLsbD (i - offset * 8) = false := BitVec.getLsbD_of_ge byte _ (by omega)
      simp [hfrom, habove, hbyte, hpast]

theorem assemble_littleEndian {count w : Nat} (hw : w = 8 * count) (value : BitVec w) :
    assemble w 0 (littleEndian count value) = value := by
  apply BitVec.eq_of_getLsbD_eq
  intro i hi
  have hbyte : i / 8 < count := by omega
  have hplace : i / 8 * 8 + i % 8 = i := by omega
  rw [getLsbD_assemble _ _ _ hi]
  have hget : (littleEndian count value).getD ((i - 0 * 8) / 8) 0 =
      (value >>> (i / 8 * 8)).setWidth 8 := by
    simp [littleEndian, List.getD_eq_getElem?_getD, hbyte]
  have hmod : i % 8 < 8 := Nat.mod_lt _ (by omega)
  rw [hget, BitVec.getLsbD_setWidth, BitVec.getLsbD_ushiftRight, hplace]
  simp [hmod]

theorem littleEndian_assemble {count w : Nat} (hw : w = 8 * count) (bytes : List Byte)
    (hlength : bytes.length = count) : littleEndian count (assemble w 0 bytes) = bytes := by
  apply List.ext_getElem
  · simp [hlength]
  intro k hk hk'
  have hcount : k < count := by simpa using hk
  simp only [littleEndian, List.getElem_map, List.getElem_range]
  apply BitVec.eq_of_getLsbD_eq
  intro j hj
  have hplace : (k * 8 + j) / 8 = k := by omega
  have hmod : (k * 8 + j) % 8 = j := by omega
  rw [BitVec.getLsbD_setWidth, BitVec.getLsbD_ushiftRight,
    getLsbD_assemble _ _ _ (show k * 8 + j < w by omega)]
  simp [hj, hplace, hmod, hk']

/-- A check between two fields. -/
def reject {ε : Type} (bad : Prop) [Decidable bad] (e : ε) : Reader ε Unit :=
  if bad then throw e else pure ()

/-! ## Rules -/

/-- `Parses` for the rest of a record when some of its fields are read already: `known` says
which values they have. -/
def ParsesRest {ε α : Type} (known : α → Prop) (read : Reader ε α) (write : α → List Byte)
    (good : α → Prop) : Prop := ∀ bytes value rest,
    read bytes = .ok (value, rest) ↔ bytes = write value ++ rest ∧ known value ∧ good value

theorem bind_ok_iff {ε α β : Type} {read : Reader ε α} {next : α → Reader ε β}
    {bytes rest : List Byte} {value : β} : (read >>= next) bytes = .ok (value, rest) ↔
      ∃ a middle, read bytes = .ok (a, middle) ∧ next a middle = .ok (value, rest) := by
  have hbind : (read >>= next) bytes = (read bytes >>= fun r => next r.1 r.2) := rfl
  rw [hbind]
  constructor
  · intro hread
    cases hfirst : read bytes with
    | error e =>
      rw [hfirst] at hread
      cases hread
    | ok first =>
      rw [hfirst] at hread
      exact ⟨first.1, first.2, rfl, hread⟩
  · rintro ⟨a, middle, hfirst, hnext⟩
    rw [hfirst]
    exact hnext

namespace ParsesRest
variable {ε β : Type} {known : β → Prop} {write' : β → List Byte} {good : β → Prop}

/-- The last step builds the record out of what was read; `good` is about the fields the
format does not carry. -/
theorem pure {value : β} (good : β → Prop) (h : ∀ b, known b ∧ good b ↔ b = value) :
    ParsesRest known (Pure.pure value : Reader ε β) (fun _ => []) good := by
  intro bytes result rest
  rw [h]
  constructor
  · intro hread
    cases hread
    exact ⟨rfl, rfl⟩
  · rintro ⟨hbytes, hresult⟩
    rw [hbytes, hresult]
    rfl

/-- What is known about the record may be used to state what is good about it. -/
theorem congr {read : Reader ε β} (good' : β → Prop) (h : ParsesRest known read write' good)
    (hgood : ∀ b, known b → (good b ↔ good' b)) : ParsesRest known read write' good' := by
  intro bytes value rest
  rw [h bytes value rest]
  constructor
  · rintro ⟨hbytes, hknown, hvalue⟩
    exact ⟨hbytes, hknown, (hgood value hknown).mp hvalue⟩
  · rintro ⟨hbytes, hknown, hvalue⟩
    exact ⟨hbytes, hknown, (hgood value hknown).mpr hvalue⟩

theorem check {bad : Prop} [Decidable bad] {e : ε} {next : Reader ε β} (bad' : β → Prop)
    (hbad : ∀ b, known b → (bad ↔ bad' b)) (hnext : ¬ bad → ParsesRest known next write' good) :
    ParsesRest known (reject bad e >>= fun _ => next) write' (fun b => ¬ bad' b ∧ good b) := by
  intro bytes value rest
  rw [bind_ok_iff]
  constructor
  · rintro ⟨done, middle, hreject, hread⟩
    unfold reject at hreject
    split at hreject
    · cases hreject
    · rename_i hok
      cases hreject
      obtain ⟨hbytes, hknown, hgood⟩ := (hnext hok bytes value rest).mp hread
      exact ⟨hbytes, hknown, fun h => hok ((hbad value hknown).mpr h), hgood⟩
  · rintro ⟨hbytes, hknown, hgood', hgood⟩
    have hok : ¬ bad := fun h => hgood' ((hbad value hknown).mp h)
    refine ⟨(), bytes, ?_, (hnext hok bytes value rest).mpr ⟨hbytes, hknown, hgood⟩⟩
    unfold reject
    rw [if_neg hok]
    rfl

end ParsesRest

namespace Parses
variable {ε α β : Type} {read : Reader ε α} {write : α → List Byte} {good : α → Prop}

theorem of_rest {good' : α → Prop} {write' : α → List Byte}
    (h : ParsesRest (fun _ => True) read write' good') (hwrite : ∀ value, write' value = write value)
    (hgood : ∀ value, good' value ↔ good value) : Parses read write good := by
  intro bytes value rest
  rw [h bytes value rest, hwrite, true_and, hgood]

/-- A field first, then the rest of the record with that field known. -/
theorem bind {known : β → Prop} {next : α → Reader ε β} {write' : β → List Byte}
    {good' : β → Prop} (h : Parses read write good) (field : β → α)
    (hnext : ∀ a, good a → ParsesRest (fun b => field b = a ∧ known b) (next a) write' good') :
    ParsesRest known (read >>= next) (fun b => write (field b) ++ write' b)
      (fun b => good (field b) ∧ good' b) := by
  intro bytes value rest
  rw [bind_ok_iff]
  constructor
  · rintro ⟨a, middle, hfirst, hsecond⟩
    obtain ⟨hbytes, hgood⟩ := (h bytes a middle).mp hfirst
    obtain ⟨hmiddle, ⟨hfield, hknown⟩, hgood'⟩ := (hnext a hgood middle value rest).mp hsecond
    refine ⟨?_, hknown, ?_, hgood'⟩
    · simp only [hbytes, hmiddle, hfield, List.append_assoc]
    · rwa [hfield]
  · rintro ⟨hbytes, hknown, hgood, hgood'⟩
    refine ⟨field value, write' value ++ rest, ?_, ?_⟩
    · exact (h _ _ _).mpr ⟨by rw [hbytes, List.append_assoc], hgood⟩
    · exact (hnext _ hgood _ _ _).mpr ⟨rfl, ⟨rfl, hknown⟩, hgood'⟩

/-- A field that has one accepted value, such as a magic number or a version. -/
theorem constant [DecidableEq α] (h : Parses read write good) {expected : α} (e : ε)
    (hgood : good expected) :
    Parses (read >>= fun actual => reject (actual ≠ expected) e) (fun _ => write expected)
      (fun _ => True) := by
  intro bytes value rest
  rw [bind_ok_iff]
  constructor
  · rintro ⟨actual, middle, hread, hreject⟩
    unfold reject at hreject
    split at hreject
    · cases hreject
    · rename_i heq
      cases hreject
      rw [← not_not.mp heq]
      exact ⟨((h _ _ _).mp hread).1, trivial⟩
  · rintro ⟨hbytes, -⟩
    refine ⟨expected, rest, (h _ _ _).mpr ⟨hbytes, hgood⟩, ?_⟩
    unfold reject
    rw [if_neg (not_not.mpr rfl)]
    rfl

theorem take (truncated : ε) (count : Nat) :
    Parses (ByteFormat.take truncated count) id (fun bytes => bytes.length = count) := by
  intro bytes value rest
  unfold ByteFormat.take
  constructor
  · intro hread
    split at hread
    · cases hread
    · rename_i hlength
      cases hread
      exact ⟨(List.take_append_drop count bytes).symm, by simp; omega⟩
  · rintro ⟨hbytes, hlength⟩
    subst hlength
    rw [if_neg (by rw [hbytes]; simp)]
    simp [hbytes]

theorem word (truncated : ε) {count w : Nat} (hw : w = 8 * count) :
    Parses (ByteFormat.word truncated count w) (littleEndian count) (fun _ => True) := by
  intro bytes value rest
  have hword : ByteFormat.word truncated count w bytes =
      (ByteFormat.take truncated count bytes).map fun r => (assemble w 0 r.1, r.2) := by
    unfold ByteFormat.word
    change (ByteFormat.take truncated count bytes >>= fun r => _) = _
    cases ByteFormat.take truncated count bytes <;> rfl
  rw [hword]
  constructor
  · intro hread
    cases htake : ByteFormat.take truncated count bytes with
    | error e =>
      rw [htake] at hread
      cases hread
    | ok taken =>
      rw [htake] at hread
      cases hread
      obtain ⟨hbytes, hlength⟩ := (take truncated count bytes taken.1 taken.2).mp htake
      rw [littleEndian_assemble hw taken.1 hlength]
      exact ⟨hbytes, trivial⟩
  · rintro ⟨hbytes, -⟩
    rw [(take truncated count bytes (littleEndian count value) rest).mpr
      ⟨hbytes, length_littleEndian value⟩]
    change Except.ok (assemble w 0 (littleEndian count value), rest) = _
    rw [assemble_littleEndian hw]

end Parses

theorem Parses.rest {ε α : Type} {read : Reader ε α} {write : α → List Byte} {good : α → Prop}
    {known : α → Prop} (h : Parses read write good) (good' : α → Prop)
    (hgood : ∀ value, good value ↔ known value ∧ good' value) :
    ParsesRest known read write good' := by
  intro bytes value rest
  rw [h bytes value rest, hgood]

/-! ## Byte vectors -/

/-- A 32-bit length and that many bytes. -/
def byteVector {ε : Type} (truncated : ε) : Reader ε (List Byte) := do
  let size ← word truncated 4 32
  take truncated size.toNat

def writeByteVector (bytes : List Byte) : List Byte :=
  littleEndian 4 (BitVec.ofNat 32 bytes.length) ++ bytes

theorem Parses.byteVector {ε : Type} (truncated : ε) :
    Parses (ByteFormat.byteVector truncated) writeByteVector
      (fun bytes => bytes.length < 2 ^ 32) := by
  have hword : Parses (ByteFormat.word truncated 4 32) (littleEndian 4) (fun _ => True) :=
    .word truncated rfl
  refine .of_rest (hword.bind (fun bytes => BitVec.ofNat 32 bytes.length) fun size _ =>
    (Parses.take truncated size.toNat).rest (fun bytes => bytes.length < 2 ^ 32) ?_) ?_ ?_
  · intro bytes
    have hsize := size.isLt
    constructor
    · intro hlength
      refine ⟨⟨?_, trivial⟩, by omega⟩
      rw [hlength, BitVec.ofNat_toNat, BitVec.setWidth_eq]
    · rintro ⟨⟨rfl, -⟩, hlength⟩
      rw [BitVec.toNat_ofNat, Nat.mod_eq_of_lt hlength]
  · intro bytes
    rfl
  · intro bytes
    simp

/-! ## Flags -/

def writeBoolean (value : Bool) : List Byte := littleEndian 1 (if value then 1 else 0 : BitVec 8)

/-- A byte that is zero or one. -/
def boolean {ε : Type} (truncated invalid : ε) : Reader ε Bool := do
  let value ← word truncated 1 8
  reject (value > 1) invalid
  pure (value != 0)

theorem Parses.boolean {ε : Type} (truncated invalid : ε) :
    Parses (ByteFormat.boolean truncated invalid) writeBoolean (fun _ => True) := by
  have hbyte : Parses (ByteFormat.word truncated 1 8) (littleEndian 1) (fun _ => True) :=
    .word truncated rfl
  refine .of_rest (hbyte.bind (fun b : Bool => if b then 1 else 0) fun value _ =>
    .check (fun _ => False) ?_ fun hvalue => .pure (fun _ => True) fun b => ?_) ?_ ?_
  · rintro b ⟨rfl, -⟩
    cases b <;> simp
  · have hcases : value = 0 ∨ value = 1 := by bv_omega
    rw [and_true, and_true]
    rcases hcases with rfl | rfl <;> cases b <;> simp
  · intro value
    simp [writeBoolean]
  · simp

/-- A flag and, where it is set, a value. -/
def optional {ε α : Type} (flag : Reader ε Bool) (read : Reader ε α) : Reader ε (Option α) := do
  let present ← flag
  if present then do
    let value ← read
    pure (some value)
  else pure none

def writeOptional {α : Type} (write : α → List Byte) (value : Option α) : List Byte :=
  writeBoolean value.isSome ++ value.elim [] write

theorem Parses.optional {ε α : Type} {flag : Reader ε Bool} {read : Reader ε α}
    {write : α → List Byte} {good : α → Prop}
    (hflag : Parses flag writeBoolean (fun _ => True)) (hread : Parses read write good) :
    Parses (ByteFormat.optional flag read) (writeOptional write)
      (fun value => ∀ a ∈ value, good a) := by
  intro bytes value rest
  unfold ByteFormat.optional writeOptional
  rw [bind_ok_iff]
  constructor
  · rintro ⟨present, middle, hpresent, hrest⟩
    obtain ⟨hbytes, -⟩ := (hflag _ _ _).mp hpresent
    cases present with
    | false =>
      cases hrest
      exact ⟨by simpa using hbytes, by simp⟩
    | true =>
      obtain ⟨a, last, ha, hlast⟩ := bind_ok_iff.mp hrest
      cases hlast
      obtain ⟨hmiddle, hgood⟩ := (hread _ _ _).mp ha
      refine ⟨by simp [hbytes, hmiddle], ?_⟩
      intro b hb
      cases hb
      exact hgood
  · rintro ⟨hbytes, hgood⟩
    cases value with
    | none =>
      exact ⟨false, rest, (hflag _ _ _).mpr ⟨by simpa using hbytes, trivial⟩, rfl⟩
    | some a =>
      refine ⟨true, write a ++ rest, (hflag _ _ _).mpr ⟨by simpa using hbytes, trivial⟩, ?_⟩
      exact bind_ok_iff.mpr ⟨a, rest, (hread _ _ _).mpr ⟨rfl, hgood a rfl⟩, rfl⟩

/-- A reader run on a whole string: nothing may be left over. -/
def readAll {ε α : Type} (trailing : ε) (read : Reader ε α) (bytes : List Byte) : Except ε α :=
  match read bytes with
  | .ok (value, []) => .ok value
  | .ok _ => .error trailing
  | .error e => .error e

theorem Parses.readAll_ok_iff {ε α : Type} {read : Reader ε α} {write : α → List Byte}
    {good : α → Prop} (h : Parses read write good) (trailing : ε) {bytes : List Byte} {value : α} :
    readAll trailing read bytes = .ok value ↔ bytes = write value ∧ good value := by
  have hwhole := h bytes value []
  rw [List.append_nil] at hwhole
  rw [← hwhole]
  unfold readAll
  constructor
  · intro hread
    split at hread
    · rename_i heq
      cases hread
      exact heq
    · cases hread
    · cases hread
  · intro hread
    rw [hread]

end KatanaRecomp.Lib.ByteFormat
