import KatanaRecomp.Runtime.PrsDecode

/-! # The language of Sega PRS

A stream is a row of bits and bytes: each token has its own, and the bytes that carry
the bits stand where the first of their bits is needed. The decoder accepts exactly
the streams of tokens up to a terminator at the end of the source whose copies stay
within the output, and gives what the tokens stand for. -/
namespace KatanaRecomp.Runtime.Prs
open Lib

/-! ## Tokens -/

inductive Item
  | bit (value : Bool)
  | byte (value : Byte)

inductive Token
  | literal (value : Byte)
  | shortCopy (first second : Bool) (encodedOffset : Byte)
  /-- The low bits hold the length. -/
  | longCopy (encoded : BitVec 16) (embedded : encoded &&& 7 ≠ 0)
  | explicitCopy (encoded : BitVec 16) (nonzero : encoded ≠ 0) (explicit : encoded &&& 7 = 0)
      (length : Byte)

def longItems (encoded : BitVec 16) : List Item :=
  [.bit false, .bit true, .byte (encoded.setWidth 8), .byte ((encoded >>> 8).setWidth 8)]

def Token.items : Token → List Item
  | .literal value => [.bit true, .byte value]
  | .shortCopy first second encodedOffset =>
    [.bit false, .bit false, .bit first, .bit second, .byte encodedOffset]
  | .longCopy encoded _ => longItems encoded
  | .explicitCopy encoded _ _ length => longItems encoded ++ [.byte length]

/-- The long copy of zero. -/
def terminator : List Item := longItems 0

/-- A copy from the output; it must not reach in front of it. -/
def copied (distance length : Nat) (output : List Byte) : Option (List Byte) :=
  if distance ≤ output.length then some (output ++ repeated distance length output) else none

def Token.apply (output : List Byte) : Token → Option (List Byte)
  | .literal value => some (output ++ [value])
  | .shortCopy first second encodedOffset =>
    copied (256 - encodedOffset.toNat) (2 * first.toNat + second.toNat + 2) output
  | .longCopy encoded _ => copied (8192 - encoded.toNat / 8) (encoded.toNat % 8 + 2) output
  | .explicitCopy encoded _ _ length =>
    copied (8192 - encoded.toNat / 8) (length.toNat + 1) output

def expand (tokens : List Token) : Option (List Byte) := tokens.foldlM Token.apply []

/-! ## Streams -/

/-- The bytes carry the items, with these control bits left over from before. -/
def Streams : List Bool → List Item → List Byte → Prop
  | _, [], bytes => bytes = []
  | pending, .byte value :: items, bytes =>
    ∃ rest, bytes = value :: rest ∧ Streams pending items rest
  | first :: pending, .bit value :: items, bytes => first = value ∧ Streams pending items bytes
  | [], .bit value :: items, bytes =>
    ∃ control rest, bytes = control :: rest ∧ control.getLsbD 0 = value ∧
      Streams ((List.range 7).map fun i => control.getLsbD (i + 1)) items rest

/-- A source in the language. -/
def Encodes (source : List Byte) (tokens : List Token) : Prop :=
  Streams [] (tokens.flatMap Token.items ++ terminator) source

namespace Reader

/-- The control bits that are left. -/
def pending (reader : Reader) : List Bool :=
  (List.range reader.remainingControlBits).map reader.control.getLsbD

/-- The reader takes the items one after the other. -/
def Reads (reader : Reader) : List Item → Reader → Prop
  | [], last => reader = last
  | .bit value :: items, last => ∃ next, reader.readBit = .ok (value, next) ∧ next.Reads items last
  | .byte value :: items, last => ∃ next, reader.readByte = .ok (value, next) ∧ next.Reads items last

variable {reader : Reader}

theorem reads_append {last : Reader} {first second : List Item} :
    reader.Reads (first ++ second) last ↔ ∃ middle, reader.Reads first middle ∧
      middle.Reads second last := by
  induction first generalizing reader with
  | nil => simp [Reads]
  | cons item rest ih =>
    cases item <;> simp only [List.cons_append, Reads, ih] <;> grind

theorem readBit_of_pending {first : Bool} {pending : List Bool}
    (h : reader.pending = first :: pending) :
    ∃ next, reader.readBit = .ok (first, next) ∧ next.pending = pending ∧ next.rest = reader.rest := by
  unfold Reader.pending at h
  cases hcount : reader.remainingControlBits with
  | zero => simp [hcount] at h
  | succ count =>
    rw [hcount, List.range_succ_eq_map, List.map_cons, List.cons.injEq, List.map_map] at h
    refine ⟨{ reader with control := reader.control >>> 1, remainingControlBits := count }, ?_, ?_,
      rfl⟩
    · have hfirst : reader.control[0] = first := by simpa using h.1
      simp [readBit, refill, hcount, bind, Except.bind, pure, Except.pure, hfirst]
    · rw [← h.2]
      unfold Reader.pending
      refine List.map_congr_left fun i _ => ?_
      simp [Nat.add_comm]

/-- Behind the first bit of a new control byte. -/
def refilled (reader : Reader) (control : Byte) (rest : List Byte) : Reader :=
  { rest, offset := reader.offset + 1, control := control >>> 1, remainingControlBits := 7 }

theorem pending_refilled (reader : Reader) (control : Byte) (rest : List Byte) :
    (reader.refilled control rest).pending =
      (List.range 7).map fun i => control.getLsbD (i + 1) := by
  unfold Reader.pending
  refine List.map_congr_left fun i _ => ?_
  simp [refilled, Nat.add_comm]

theorem readBit_of_empty (h : reader.pending = []) :
    reader.readBit = match reader.rest with
      | [] => .error ⟨.invalidInput, reader.offset, "prs-truncated-token"⟩
      | control :: rest => .ok (control.getLsbD 0, reader.refilled control rest) := by
  have hcount : reader.remainingControlBits = 0 := by simpa [pending] using h
  unfold readBit refill
  rw [if_pos hcount]
  unfold readByte
  cases reader.rest <;> rfl

/-- What the reader takes up to the end of the source is what the bytes carry. -/
theorem streams_iff {reader : Reader} {items : List Item} :
    Streams reader.pending items reader.rest ↔ ∃ last, reader.Reads items last ∧ last.rest = [] := by
  induction items generalizing reader with
  | nil => simp [Streams, Reads]
  | cons item items ih =>
    cases item with
    | byte value =>
      simp only [Streams, Reads]
      constructor
      · intro h
        obtain ⟨rest, hrest, h⟩ := h
        have hnext : reader.readByte =
            .ok (value, { reader with rest, offset := reader.offset + 1 }) := by
          unfold readByte
          rw [hrest]
        obtain ⟨last, hreads, hend⟩ := (@ih { reader with rest, offset := reader.offset + 1 }).mp h
        exact ⟨last, ⟨_, hnext, hreads⟩, hend⟩
      · intro h
        obtain ⟨last, ⟨next, hnext, hreads⟩, hend⟩ := h
        unfold readByte at hnext
        split at hnext
        · cases hnext
        · rename_i byte rest hrest
          cases hnext
          exact ⟨rest, hrest, ih.mpr ⟨last, hreads, hend⟩⟩
    | bit value =>
      cases hpending : reader.pending with
      | cons first pending =>
        obtain ⟨next, hnext, hleft, hrest⟩ := readBit_of_pending hpending
        simp only [Streams, Reads, hnext, Except.ok.injEq, Prod.mk.injEq]
        rw [← hleft, ← hrest, ih]
        grind
      | nil =>
        have hnext := readBit_of_empty hpending
        cases hrest : reader.rest with
        | nil =>
          rw [hrest] at hnext
          simp [Streams, Reads, hnext]
        | cons control rest =>
          rw [hrest] at hnext
          simp only [Streams, Reads, hnext, Except.ok.injEq, Prod.mk.injEq, List.cons.injEq]
          have hih := @ih (reader.refilled control rest)
          rw [pending_refilled] at hih
          constructor
          · intro h
            obtain ⟨_, _, ⟨rfl, rfl⟩, hvalue, h⟩ := h
            obtain ⟨last, hreads, hend⟩ := hih.mp h
            exact ⟨last, ⟨_, ⟨hvalue, rfl⟩, hreads⟩, hend⟩
          · intro h
            obtain ⟨last, ⟨_, ⟨hvalue, rfl⟩, hreads⟩, hend⟩ := h
            exact ⟨control, rest, ⟨rfl, rfl⟩, hvalue, hih.mpr ⟨last, hreads, hend⟩⟩

/-- A byte among the items is still to come. -/
theorem rest_ne_nil {last : Reader} {items : List Item} {value : Byte}
    (h : reader.Reads items last) (hmem : .byte value ∈ items) : reader.rest ≠ [] := by
  induction items generalizing reader with
  | nil => cases hmem
  | cons item items ih =>
    intro hempty
    cases item with
    | byte value =>
      obtain ⟨next, hnext, -⟩ := h
      unfold readByte at hnext
      rw [hempty] at hnext
      cases hnext
    | bit value =>
      obtain ⟨next, hnext, hreads⟩ := h
      refine ih hreads (by simpa using hmem) ?_
      cases hpending : reader.pending with
      | nil =>
        rw [readBit_of_empty hpending, hempty] at hnext
        cases hnext
      | cons first pending =>
        obtain ⟨_, hread, -, hrest⟩ := readBit_of_pending hpending
        rw [hread] at hnext
        cases hnext
        exact hrest.trans hempty

end Reader

/-! ## Rounds and tokens -/

section
variable {maximum offset distance length : Nat} {reader next : Reader}
  {output output' : List Byte}

theorem appendByte_ok_iff {value : Byte} (hwithin : output.length ≤ maximum) :
    appendByte output value maximum offset = .ok output' ↔
      output' = output ++ [value] ∧ output'.length ≤ maximum := by
  unfold appendByte
  split
  · simp only [reduceCtorEq, false_iff, not_and]
    intro h
    simp [h]
    omega
  · rw [Except.ok.injEq, eq_comm]
    refine (and_iff_left_of_imp fun h => ?_).symm
    simp [h]
    omega

theorem appendCopy_ok_iff (hpositive : 0 < distance) (hwithin : output.length ≤ maximum) :
    appendCopy output distance length maximum offset = .ok output' ↔
      copied distance length output = some output' ∧ output'.length ≤ maximum := by
  unfold appendCopy copied
  by_cases hreach : distance ≤ output.length
  · have hlength : (appendBack distance length output).length = output.length + length :=
      length_appendBack hpositive hreach
    rw [if_neg (by omega), if_pos hreach, ← appendBack_eq hpositive hreach, Option.some.injEq]
    split
    · simp only [reduceCtorEq, false_iff, not_and]
      intro h
      rw [← h, hlength]
      omega
    · rw [Except.ok.injEq]
      refine (and_iff_left_of_imp fun h => ?_).symm
      rw [← h, hlength]
      omega
  · rw [if_pos (by omega), if_neg hreach]
    simp

/-- The word of two bytes and the bytes of a word. -/
theorem word_eq_iff {low high : Byte} {encoded : BitVec 16} :
    low.setWidth 16 ||| high.setWidth 16 <<< 8 = encoded ↔
      low = encoded.setWidth 8 ∧ high = (encoded >>> 8).setWidth 8 := by
  constructor
  · intro h
    subst h
    constructor
    · refine BitVec.eq_of_getLsbD_eq fun i hi => ?_
      simp [hi]
    · refine BitVec.eq_of_getLsbD_eq fun i hi => ?_
      have hbelow : 8 + i < 16 := by omega
      have hbehind : ¬8 + i < 8 := by omega
      simp [hi, hbelow, hbehind]
  · intro h
    rw [h.1, h.2]
    refine BitVec.eq_of_getLsbD_eq fun i hi => ?_
    by_cases hlow : i < 8
    · simp [hi, hlow]
    · have hbelow : i - 8 < 8 := by omega
      simp [hi, hlow, hbelow, Nat.add_sub_cancel' (Nat.not_lt.mp hlow)]

theorem toNat_fields (encoded : BitVec 16) :
    (encoded >>> 3).toNat = encoded.toNat / 8 ∧ (encoded &&& 7).toNat = encoded.toNat % 8 := by
  constructor
  · rw [BitVec.toNat_ushiftRight, Nat.shiftRight_eq_div_pow]
  · rw [BitVec.toNat_and]
    exact Nat.and_two_pow_sub_one_eq_mod encoded.toNat 3

theorem shortLength (first second : Bool) :
    (first.toNat * 2 ||| second.toNat) + 2 = 2 * first.toNat + second.toNat + 2 := by
  cases first <;> cases second <;> rfl

theorem reach_pos (encodedOffset : Byte) (encoded : BitVec 16) :
    0 < 256 - encodedOffset.toNat ∧ 0 < 8192 - encoded.toNat / 8 := by
  have hoffset := encodedOffset.isLt
  have hencoded := encoded.isLt
  omega

variable {round : Round}

/-- What a long copy reads, and what it makes of it. -/
theorem decodeLongCopy_ok (h : decodeLongCopy maximum reader output = .ok round)
    (hwithin : output.length ≤ maximum) :
    (∃ last, reader.Reads [.byte 0, .byte 0] last ∧ last.rest = [] ∧ round = .finished output) ∨
      ∃ token : Token, ∃ next output', reader.Reads (token.items.drop 2) next ∧
        token.items.take 2 = [.bit false, .bit true] ∧ token.apply output = some output' ∧
          output'.length ≤ maximum ∧ round = .next next output' := by
  unfold decodeLongCopy at h
  obtain ⟨⟨low, first⟩, hlow, h⟩ := bind_eq_ok h
  obtain ⟨⟨high, second⟩, hhigh, h⟩ := bind_eq_ok h
  dsimp only at h
  generalize hword : low.setWidth 16 ||| high.setWidth 16 <<< 8 = encoded at h
  obtain ⟨rfl, rfl⟩ := word_eq_iff.mp hword
  obtain ⟨hdistance, hlength⟩ := toNat_fields encoded
  have hpositive := (reach_pos 0 encoded).2
  split at h
  · rename_i hzero
    split at h
    · cases h
    · rename_i hend
      cases h
      subst hzero
      exact .inl ⟨second, ⟨first, hlow, second, hhigh, rfl⟩, by simpa using hend, rfl⟩
  · rename_i hnonzero
    rw [hdistance, hlength] at h
    split at h
    · rename_i hexplicit
      obtain ⟨⟨length, third⟩, hread, h⟩ := bind_eq_ok h
      obtain ⟨copiedOutput, hcopied, h⟩ := bind_eq_ok h
      cases h
      obtain ⟨happlied, hfits⟩ := (appendCopy_ok_iff hpositive hwithin).mp hcopied
      exact .inr ⟨.explicitCopy encoded hnonzero hexplicit length, third, copiedOutput,
        ⟨first, hlow, second, hhigh, third, hread, rfl⟩, rfl, happlied, hfits, rfl⟩
    · rename_i hembedded
      obtain ⟨copiedOutput, hcopied, h⟩ := bind_eq_ok h
      cases h
      obtain ⟨happlied, hfits⟩ := (appendCopy_ok_iff hpositive hwithin).mp hcopied
      exact .inr ⟨.longCopy encoded hembedded, second, copiedOutput,
        ⟨first, hlow, second, hhigh, rfl⟩, rfl, happlied, hfits, rfl⟩

theorem decodeShortCopy_ok (h : decodeShortCopy maximum reader output = .ok round)
    (hwithin : output.length ≤ maximum) : ∃ first second encodedOffset next output',
      reader.Reads [.bit first, .bit second, .byte encodedOffset] next ∧
        (Token.shortCopy first second encodedOffset).apply output = some output' ∧
          output'.length ≤ maximum ∧ round = .next next output' := by
  unfold decodeShortCopy at h
  obtain ⟨⟨first, one⟩, hfirst, h⟩ := bind_eq_ok h
  obtain ⟨⟨second, two⟩, hsecond, h⟩ := bind_eq_ok h
  obtain ⟨⟨encodedOffset, three⟩, hread, h⟩ := bind_eq_ok h
  dsimp only at h
  obtain ⟨copiedOutput, hcopied, h⟩ := bind_eq_ok h
  cases h
  rw [shortLength] at hcopied
  obtain ⟨happlied, hfits⟩ := (appendCopy_ok_iff (reach_pos encodedOffset 0).1 hwithin).mp hcopied
  exact ⟨first, second, encodedOffset, three, copiedOutput,
    ⟨one, hfirst, two, hsecond, three, hread, rfl⟩, happlied, hfits, rfl⟩

/-- A round takes a token, or the terminator at the end of the source. -/
theorem decodeRound_ok (h : decodeRound maximum reader output = .ok round)
    (hwithin : output.length ≤ maximum) :
    (∃ last, reader.Reads terminator last ∧ last.rest = [] ∧ round = .finished output) ∨
      ∃ token : Token, ∃ next output', reader.Reads token.items next ∧
        token.apply output = some output' ∧ output'.length ≤ maximum ∧
          round = .next next output' := by
  unfold decodeRound at h
  split at h
  · cases h
  obtain ⟨⟨isLiteral, first⟩, hliteral, h⟩ := bind_eq_ok h
  cases isLiteral with
  | true =>
    rw [if_pos rfl] at h
    unfold decodeLiteral at h
    obtain ⟨⟨value, second⟩, hvalue, h⟩ := bind_eq_ok h
    obtain ⟨appended, happended, h⟩ := bind_eq_ok h
    cases h
    obtain ⟨rfl, hfits⟩ := (appendByte_ok_iff hwithin).mp happended
    exact .inr ⟨.literal value, second, _, ⟨first, hliteral, second, hvalue, rfl⟩, rfl, hfits, rfl⟩
  | false =>
    rw [if_neg Bool.false_ne_true] at h
    obtain ⟨⟨isLong, second⟩, hlong, h⟩ := bind_eq_ok h
    cases isLong with
    | true =>
      rw [if_pos rfl] at h
      rcases decodeLongCopy_ok h hwithin with ⟨last, hreads, hend, hround⟩ |
        ⟨token, next, output', hreads, hfront, happlied, hfits, hround⟩
      · exact .inl ⟨last, ⟨first, hliteral, second, hlong, hreads⟩, hend, hround⟩
      · refine .inr ⟨token, next, output', ?_, happlied, hfits, hround⟩
        rw [← List.take_append_drop 2 token.items, hfront]
        exact ⟨first, hliteral, second, hlong, hreads⟩
    | false =>
      rw [if_neg Bool.false_ne_true] at h
      obtain ⟨one, two, encodedOffset, next, output', hreads, happlied, hfits, hround⟩ :=
        decodeShortCopy_ok h hwithin
      exact .inr ⟨.shortCopy one two encodedOffset, next, output',
        ⟨first, hliteral, second, hlong, hreads⟩, happlied, hfits, hround⟩

theorem ok_bind {α β : Type} (a : α) (f : α → Except PrsDecodeError β) :
    (Except.ok a >>= f) = f a := rfl

/-- Where a token is to be read and its copy fits, a round takes it. -/
theorem decodeRound_token {token : Token} (hreads : reader.Reads token.items next)
    (happlied : token.apply output = some output') (hwithin : output.length ≤ maximum)
    (hfits : output'.length ≤ maximum) :
    decodeRound maximum reader output = .ok (.next next output') := by
  have hbyte : ∃ value, Item.byte value ∈ token.items := by
    cases token <;> simp [Token.items, longItems]
  obtain ⟨value, hvalue⟩ := hbyte
  have hrest := Reader.rest_ne_nil hreads hvalue
  unfold decodeRound
  rw [if_neg hrest]
  cases token with
  | literal value =>
    obtain ⟨first, hfirst, second, hsecond, rfl⟩ := hreads
    rw [hfirst, ok_bind, if_pos rfl]
    unfold decodeLiteral
    rw [hsecond, ok_bind, (appendByte_ok_iff hwithin).mpr ⟨(Option.some.inj happlied).symm, hfits⟩]
    rfl
  | shortCopy one two encodedOffset =>
    obtain ⟨first, hfirst, second, hsecond, third, hthird, fourth, hfourth, fifth, hfifth, rfl⟩ :=
      hreads
    rw [hfirst, ok_bind, if_neg Bool.false_ne_true, hsecond, ok_bind, if_neg Bool.false_ne_true]
    unfold decodeShortCopy
    rw [hthird, ok_bind, hfourth, ok_bind, hfifth, ok_bind]
    dsimp only
    rw [shortLength,
      (appendCopy_ok_iff (reach_pos encodedOffset 0).1 hwithin).mpr ⟨happlied, hfits⟩]
    rfl
  | longCopy encoded hembedded =>
    obtain ⟨first, hfirst, second, hsecond, third, hthird, fourth, hfourth, rfl⟩ := hreads
    have hnonzero : encoded ≠ 0 := by
      intro hzero
      rw [hzero] at hembedded
      exact hembedded (by decide)
    obtain ⟨hdistance, hlength⟩ := toNat_fields encoded
    rw [hfirst, ok_bind, if_neg Bool.false_ne_true, hsecond, ok_bind, if_pos rfl]
    unfold decodeLongCopy
    rw [hthird, ok_bind, hfourth, ok_bind]
    dsimp only
    rw [word_eq_iff.mpr ⟨rfl, rfl⟩, if_neg hnonzero, if_neg hembedded, hdistance, hlength,
      (appendCopy_ok_iff (reach_pos 0 encoded).2 hwithin).mpr ⟨happlied, hfits⟩]
    rfl
  | explicitCopy encoded hnonzero hexplicit length =>
    obtain ⟨first, hfirst, second, hsecond, third, hthird, fourth, hfourth, fifth, hfifth, rfl⟩ :=
      hreads
    obtain ⟨hdistance, hlength⟩ := toNat_fields encoded
    rw [hfirst, ok_bind, if_neg Bool.false_ne_true, hsecond, ok_bind, if_pos rfl]
    unfold decodeLongCopy
    rw [hthird, ok_bind, hfourth, ok_bind]
    dsimp only
    rw [word_eq_iff.mpr ⟨rfl, rfl⟩, if_neg hnonzero, if_pos hexplicit, hfifth, ok_bind, hdistance]
    dsimp only
    rw [(appendCopy_ok_iff (reach_pos 0 encoded).2 hwithin).mpr ⟨happlied, hfits⟩]
    rfl

theorem decodeRound_terminator {last : Reader} (hreads : reader.Reads terminator last)
    (hend : last.rest = []) : decodeRound maximum reader output = .ok (.finished output) := by
  have hbyte : Item.byte 0 ∈ terminator := by simp [terminator, longItems]
  have hrest := Reader.rest_ne_nil hreads hbyte
  obtain ⟨first, hfirst, second, hsecond, third, hthird, fourth, hfourth, rfl⟩ := hreads
  unfold decodeRound
  rw [if_neg hrest, hfirst, ok_bind, if_neg Bool.false_ne_true, hsecond, ok_bind, if_pos rfl]
  unfold decodeLongCopy
  rw [hthird, ok_bind, hfourth, ok_bind]
  dsimp only
  rw [word_eq_iff.mpr ⟨rfl, rfl⟩, if_pos rfl, if_neg (by simpa using hend)]
  rfl

/-- An expansion only grows. -/
theorem length_le_apply {token : Token} (h : token.apply output = some output') :
    output.length ≤ output'.length := by
  have hcopied : ∀ distance length, copied distance length output = some output' →
      output.length ≤ output'.length := by
    intro distance length h
    unfold copied at h
    split at h
    · cases h
      simp
    · cases h
  cases token with
  | literal value =>
    cases h
    simp
  | shortCopy first second encodedOffset => exact hcopied _ _ h
  | longCopy encoded _ => exact hcopied _ _ h
  | explicitCopy encoded _ _ length => exact hcopied _ _ h

end

/-! ## The loop -/

variable {result : List Byte} {output : List Byte} {tokens : List Token}

theorem length_le_expand
    (h : tokens.foldlM Token.apply output = some result) : output.length ≤ result.length := by
  induction tokens generalizing output with
  | nil =>
    cases h
    exact le_rfl
  | cons token rest ih =>
    rw [List.foldlM_cons] at h
    obtain ⟨output', happlied, h⟩ := Option.bind_eq_some_iff.mp h
    exact (length_le_apply happlied).trans (ih h)

theorem decodeLoop_sound {maximum : Nat} {reader : Reader}
    (hwithin : output.length ≤ maximum) (h : decodeLoop maximum reader output = .ok result) :
    ∃ tokens : List Token, (∃ last, reader.Reads (tokens.flatMap Token.items ++ terminator) last ∧
      last.rest = []) ∧ tokens.foldlM Token.apply output = some result ∧
        result.length ≤ maximum := by
  fun_induction decodeLoop maximum reader output with
  | case1 reader output e _ => cases h
  | case2 reader output output' hround =>
    cases h
    rcases decodeRound_ok hround hwithin with ⟨last, hreads, hend, hfinished⟩ |
      ⟨token, next, output', -, -, -, hnext⟩
    · cases hfinished
      exact ⟨[], ⟨last, hreads, hend⟩, rfl, hwithin⟩
    · cases hnext
  | case3 reader output next output' hround ih =>
    rcases decodeRound_ok hround hwithin with ⟨last, -, -, hfinished⟩ |
      ⟨token, next', output'', hreads, happlied, hfits, hnext⟩
    · cases hfinished
    · cases hnext
      obtain ⟨tokens, ⟨last, hrest, hend⟩, hexpanded, hlimit⟩ := ih hfits h
      refine ⟨token :: tokens, ⟨last, ?_, hend⟩, ?_, hlimit⟩
      · rw [List.flatMap_cons, List.append_assoc, Reader.reads_append]
        exact ⟨next, hreads, hrest⟩
      · rw [List.foldlM_cons, happlied]
        exact hexpanded

theorem decodeLoop_complete {maximum : Nat} {reader last : Reader}
    (hreads : reader.Reads (tokens.flatMap Token.items ++ terminator) last) (hend : last.rest = [])
    (hexpanded : tokens.foldlM Token.apply output = some result) (hlimit : result.length ≤ maximum) :
    decodeLoop maximum reader output = .ok result := by
  induction tokens generalizing reader output with
  | nil =>
    cases hexpanded
    rw [decodeLoop, decodeRound_terminator hreads hend]
  | cons token rest ih =>
    have hwithin := (length_le_expand hexpanded).trans hlimit
    rw [List.flatMap_cons, List.append_assoc, Reader.reads_append] at hreads
    obtain ⟨next, htoken, hrest⟩ := hreads
    rw [List.foldlM_cons] at hexpanded
    obtain ⟨output', happlied, hexpanded⟩ := Option.bind_eq_some_iff.mp hexpanded
    have hfits := (length_le_expand hexpanded).trans hlimit
    rw [decodeLoop, decodeRound_token htoken happlied hwithin hfits]
    exact ih hrest hexpanded

/-- The decoder accepts the language within its limits, and gives the expansion. -/
theorem decompress_ok_iff (source : List Byte)
    (maximumCompressedBytes maximumDecompressedBytes : Nat) (result : List Byte) :
    decompressSegaPrs source maximumCompressedBytes maximumDecompressedBytes = .ok result ↔
      maximumDecompressedBytes ≠ 0 ∧ source.length ≤ maximumCompressedBytes ∧
        ∃ tokens, Encodes source tokens ∧ expand tokens = some result ∧
          result.length ≤ maximumDecompressedBytes := by
  have hstreams : ∀ items, Streams [] items source ↔
      ∃ last, ({ rest := source } : Reader).Reads items last ∧ last.rest = [] :=
    fun items => @Reader.streams_iff { rest := source } items
  unfold decompressSegaPrs Encodes expand
  constructor
  · intro h
    split at h
    · cases h
    rename_i hlimits
    obtain ⟨-, hmaximum⟩ := not_or.mp hlimits
    split at h
    · cases h
    split at h
    · cases h
    rename_i hlength
    obtain ⟨tokens, hreads, hexpanded, hlimit⟩ := decodeLoop_sound (Nat.zero_le _) h
    exact ⟨hmaximum, Nat.not_lt.mp hlength, tokens, (hstreams _).mpr hreads, hexpanded, hlimit⟩
  · intro h
    obtain ⟨hmaximum, hlength, tokens, hencodes, hexpanded, hlimit⟩ := h
    obtain ⟨last, hreads, hend⟩ := (hstreams _).mp hencodes
    have hbyte : Item.byte 0 ∈ tokens.flatMap Token.items ++ terminator := by
      simp [terminator, longItems]
    have hsource : source ≠ [] := Reader.rest_ne_nil hreads hbyte
    have hpositive := List.length_pos_of_ne_nil hsource
    rw [if_neg (by omega), if_neg hsource, if_neg (by omega)]
    exact decodeLoop_complete hreads hend hexpanded hlimit

/-- The terminator alone stands for nothing, which is within a limit of zero; but such a
limit is refused. -/
theorem zero_limit_refused : ¬∀ source maximumCompressedBytes maximumDecompressedBytes,
    (∃ result, decompressSegaPrs source maximumCompressedBytes maximumDecompressedBytes =
        .ok result) ↔ ∃ tokens result, Encodes source tokens ∧ expand tokens = some result ∧
        result.length ≤ maximumDecompressedBytes := by
  intro h
  have hencodes : Encodes [0x02, 0x00, 0x00] [] := ⟨0x02, _, rfl, rfl, rfl, _, rfl, _, rfl, rfl⟩
  obtain ⟨result, hresult⟩ := (h [0x02, 0x00, 0x00] 3 0).mpr ⟨[], [], hencodes, rfl, le_rfl⟩
  exact ((decompress_ok_iff _ _ _ _).mp hresult).1 rfl

end KatanaRecomp.Runtime.Prs
