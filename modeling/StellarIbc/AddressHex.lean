import StellarIbc.TransferRefunds

/-!
# The hexadecimal texts of addresses

`address_to_string` writes the XDR of an address as hexadecimal digits, and
`string_to_address` reads such a text back.  Both copy into arrays of fixed lengths and
work on them by index, so an index can be outside.  `addressToString` and
`stringToAddress` say what comes out; here are the loops with their arrays, which compute
the same, and what a text stands for.
-/

namespace StellarIbc.Transfer

open StellarIbc.TransferSystem (addressXdr)

/-! ### Arrays of a fixed length -/

/-- How the two functions fail. `rejected` is the panic with `InvalidPacketData`, or the
trap of the host on bytes that are no XDR. -/
inductive HexPanic where
  | outOfBounds
  | rejected
deriving DecidableEq, Repr

/-- `array[i]`. -/
def readAt (array : Bytes) (i : Nat) : Except HexPanic UInt8 :=
  match array[i]? with
  | some byte => .ok byte
  | none => .error .outOfBounds

/-- `array[i] = byte`. -/
def writeAt (array : Bytes) (i : Nat) (byte : UInt8) : Except HexPanic Bytes :=
  if i < array.length then .ok (array.set i byte) else .error .outOfBounds

/-- `bytes.copy_into_slice(&mut array[..len])`, where `len` is the length of `bytes`. -/
def copyIntoSlice (array bytes : Bytes) : Except HexPanic Bytes :=
  if bytes.length ≤ array.length then .ok (bytes ++ array.drop bytes.length)
  else .error .outOfBounds

/-- `&array[..len]`. -/
def slice (array : Bytes) (len : Nat) : Except HexPanic Bytes :=
  if len ≤ array.length then .ok (array.take len) else .error .outOfBounds

def orReject {α : Type} : Option α → Except HexPanic α
  | some value => .ok value
  | none => .error .rejected

/-! ### The two functions -/

/-- `for i in 0..len` of `address_to_string`: `count` steps are left. -/
def writeHex (buf : Bytes) : (count i : Nat) → (hex : Bytes) → Except HexPanic Bytes
  | 0, _, hex => .ok hex
  | count + 1, i, hex => do
      let hex ← writeAt hex (i * 2) (nibbleToHex ((← readAt buf i) >>> 4))
      let hex ← writeAt hex (i * 2 + 1) (nibbleToHex ((← readAt buf i) &&& 0x0f))
      writeHex buf count (i + 1) hex

def addressToStringIndexed (codec : Codec) (addr : Address) : Except HexPanic HostString := do
  let xdr := codec.addressToXdr addr
  let len := xdr.length
  let buf ← copyIntoSlice (List.replicate 256 0) xdr
  let hex ← writeHex buf len 0 (List.replicate 512 0)
  slice hex (len * 2)

/-- `for i in 0..bytes_len` of `string_to_address`: `count` steps are left. -/
def readHex (hex : Bytes) : (count i : Nat) → (buf : Bytes) → Except HexPanic Bytes
  | 0, _, buf => .ok buf
  | count + 1, i, buf => do
      let hi ← orReject (hexToNibble (← readAt hex (i * 2)))
      let lo ← orReject (hexToNibble (← readAt hex (i * 2 + 1)))
      let buf ← writeAt buf i ((hi <<< 4) ||| lo)
      readHex hex count (i + 1) buf

def stringToAddressIndexed (codec : Codec) (s : HostString) : Except HexPanic Address := do
  let len := s.length
  if len % 2 ≠ 0 ∨ len > 512 then throw .rejected
  let hex ← copyIntoSlice (List.replicate 512 0) s
  let bytesLen := len / 2
  let buf ← readHex hex bytesLen 0 (List.replicate 256 0)
  let bytes ← slice buf bytesLen
  orReject (codec.addressFromXdr bytes)

/-! ### What a text stands for -/

/-- The lower case of an ASCII letter; other bytes stay. -/
def lowerCase (c : UInt8) : UInt8 := if 0x41 ≤ c ∧ c ≤ 0x5a then c + 0x20 else c

/-- The two texts are equal up to the case of their letters. -/
def EqualUpToCase (s t : Bytes) : Prop := s.map lowerCase = t.map lowerCase

def hexDigits : Bytes := ascii "0123456789abcdef"

def HexDigit (c : UInt8) : Prop := lowerCase c ∈ hexDigits

instance (c : UInt8) : Decidable (HexDigit c) :=
  inferInstanceAs (Decidable (lowerCase c ∈ hexDigits))

/-- Pairs of hexadecimal digits. -/
structure IsHex (s : Bytes) : Prop where
  even : s.length % 2 = 0
  digits : ∀ c ∈ s, HexDigit c

/-- The value of a digit is its place among the digits. -/
def hexValue (c : UInt8) : Nat := hexDigits.idxOf (lowerCase c)

/-- The bytes a text of hexadecimal digits stands for, two digits a byte. -/
def hexBytes : Bytes → Bytes
  | [] => []
  | [_] => []
  | high :: low :: rest => .ofNat (16 * hexValue high + hexValue low) :: hexBytes rest

/-- The digits of a text of bytes. -/
def hexText (bytes : Bytes) : Bytes :=
  bytes.flatMap fun (byte : UInt8) => [nibbleToHex (byte >>> 4), nibbleToHex (byte &&& 0x0f)]

/-! ### Digits -/

theorem hexToNibble_eq : ∀ c,
    hexToNibble c = if HexDigit c then some (UInt8.ofNat (hexValue c)) else none :=
  forall_byte (by decide +kernel)

theorem hexValue_lt {c : UInt8} (h : HexDigit c) : hexValue c < 16 :=
  List.idxOf_lt_length_iff.mpr h

theorem lowerCase_lowerCase : ∀ c, lowerCase (lowerCase c) = lowerCase c :=
  forall_byte (by decide +kernel)

/-- A digit is written back in lower case. -/
theorem nibbleToHex_hexValue :
    ∀ c, HexDigit c → nibbleToHex (UInt8.ofNat (hexValue c)) = lowerCase c :=
  forall_byte (by decide +kernel)

/-- The two digits of a byte are read back as its halves. -/
theorem hexToNibble_nibbles : ∀ byte : UInt8,
    hexToNibble (nibbleToHex (byte >>> 4)) = some (byte >>> 4) ∧
      hexToNibble (nibbleToHex (byte &&& 0x0f)) = some (byte &&& 0x0f) ∧
      ((byte >>> 4) <<< 4) ||| (byte &&& 0x0f) = byte :=
  forall_byte (by decide +kernel)

theorem nibbles_eq {high low : Nat} (hhigh : high < 16) (hlow : low < 16) :
    (UInt8.ofNat high <<< 4) ||| UInt8.ofNat low = UInt8.ofNat (16 * high + low) ∧
      UInt8.ofNat (16 * high + low) >>> 4 = UInt8.ofNat high ∧
      UInt8.ofNat (16 * high + low) &&& 0x0f = UInt8.ofNat low := by
  have hall : ∀ high < 16, ∀ low < 16,
      (UInt8.ofNat high <<< 4) ||| UInt8.ofNat low = UInt8.ofNat (16 * high + low) ∧
        UInt8.ofNat (16 * high + low) >>> 4 = UInt8.ofNat high ∧
        UInt8.ofNat (16 * high + low) &&& 0x0f = UInt8.ofNat low := by
    decide
  exact hall high hhigh low hlow

/-! ### Texts -/

theorem isHex_cons {high low : UInt8} {rest : Bytes} :
    IsHex (high :: low :: rest) ↔ HexDigit high ∧ HexDigit low ∧ IsHex rest := by
  have hlength : (high :: low :: rest).length % 2 = rest.length % 2 := by
    simp only [List.length_cons]
    omega
  constructor
  · rintro ⟨heven, hdigits⟩
    rw [List.forall_mem_cons, List.forall_mem_cons] at hdigits
    exact ⟨hdigits.1, hdigits.2.1, hlength.symm.trans heven, hdigits.2.2⟩
  · rintro ⟨hhigh, hlow, heven, hdigits⟩
    refine ⟨hlength.trans heven, ?_⟩
    rw [List.forall_mem_cons, List.forall_mem_cons]
    exact ⟨hhigh, hlow, hdigits⟩

/-- A text is decoded exactly when it consists of pairs of digits. -/
theorem decodeHex_eq_some {s bytes : Bytes} :
    decodeHex s = some bytes ↔ IsHex s ∧ hexBytes s = bytes := by
  induction s using decodeHex.induct generalizing bytes with
  | case1 =>
      have hnil : IsHex [] := ⟨rfl, List.forall_mem_nil _⟩
      simp [decodeHex, hexBytes, hnil]
  | case2 c =>
      have hodd : ¬ IsHex [c] := fun h => absurd h.even (by simp)
      simp [decodeHex, hodd]
  | case3 high low rest ih =>
      rw [decodeHex, hexToNibble_eq, hexToNibble_eq, isHex_cons]
      by_cases hhigh : HexDigit high
      · by_cases hlow : HexDigit low
        · have hbyte := (nibbles_eq (hexValue_lt hhigh) (hexValue_lt hlow)).1
          rw [if_pos hhigh, if_pos hlow]
          simp only [Option.bind_eq_bind, Option.bind_some, hbyte]
          rw [Option.bind_eq_some_iff]
          constructor
          · rintro ⟨more, hmore, hbytes⟩
            obtain ⟨hrest, rfl⟩ := ih.mp hmore
            exact ⟨⟨hhigh, hlow, hrest⟩, Option.some.inj hbytes⟩
          · rintro ⟨⟨-, -, hrest⟩, rfl⟩
            exact ⟨hexBytes rest, ih.mpr ⟨hrest, rfl⟩, rfl⟩
        · simp [hlow]
      · simp [hhigh]

theorem decodeHex_hexText (bytes : Bytes) : decodeHex (hexText bytes) = some bytes := by
  induction bytes with
  | nil => rfl
  | cons byte bytes ih =>
      obtain ⟨hhigh, hlow, hbyte⟩ := hexToNibble_nibbles byte
      have htext : hexText (byte :: bytes) =
          nibbleToHex (byte >>> 4) :: nibbleToHex (byte &&& 0x0f) :: hexText bytes := rfl
      rw [htext, decodeHex, hhigh, hlow, ih]
      simp only [Option.bind_eq_bind, Option.bind_some, hbyte]
      rfl

theorem length_hexText (bytes : Bytes) : (hexText bytes).length = bytes.length * 2 := by
  induction bytes with
  | nil => rfl
  | cons byte bytes ih =>
      rw [List.length_cons, Nat.succ_mul, ← ih]
      rfl

theorem length_hexBytes (s : Bytes) : (hexBytes s).length = s.length / 2 := by
  induction s using hexBytes.induct with
  | case1 => rfl
  | case2 c => simp [hexBytes]
  | case3 high low rest ih =>
      simp only [hexBytes, List.length_cons, ih]
      omega

/-- Written back, the bytes of a text give the text in lower case. -/
theorem hexText_hexBytes {s : Bytes} (h : IsHex s) : hexText (hexBytes s) = s.map lowerCase := by
  induction s using hexBytes.induct with
  | case1 => rfl
  | case2 c => exact absurd h.even (by simp)
  | case3 high low rest ih =>
      obtain ⟨hhigh, hlow, hrest⟩ := isHex_cons.mp h
      obtain ⟨-, hshift, hmask⟩ := nibbles_eq (hexValue_lt hhigh) (hexValue_lt hlow)
      rw [List.map_cons, List.map_cons, ← ih hrest, ← nibbleToHex_hexValue _ hhigh,
        ← nibbleToHex_hexValue _ hlow, ← hshift, ← hmask]
      rfl

/-- The case of the letters does not matter. -/
theorem hexBytes_map_lowerCase (s : Bytes) : hexBytes (s.map lowerCase) = hexBytes s := by
  have hvalue : ∀ c, hexValue (lowerCase c) = hexValue c := by
    intro c
    rw [hexValue, lowerCase_lowerCase, hexValue]
  induction s using hexBytes.induct with
  | case1 => rfl
  | case2 c => rfl
  | case3 high low rest ih =>
      rw [List.map_cons, List.map_cons, hexBytes, hexBytes, ih, hvalue, hvalue]

theorem hexBytes_eq_iff {s t : Bytes} (hs : IsHex s) (ht : IsHex t) :
    hexBytes s = hexBytes t ↔ EqualUpToCase s t := by
  unfold EqualUpToCase
  constructor
  · intro h
    rw [← hexText_hexBytes hs, ← hexText_hexBytes ht, h]
  · intro h
    rw [← hexBytes_map_lowerCase s, ← hexBytes_map_lowerCase t, h]

/-! ### The loops -/

theorem readAt_append {done rest : Bytes} {byte : UInt8} {i : Nat} (hi : i = done.length) :
    readAt (done ++ byte :: rest) i = .ok byte := by
  subst hi
  rw [readAt, List.getElem?_append_right (Nat.le_refl _), Nat.sub_self]
  rfl

theorem writeAt_append {done rest : Bytes} {old byte : UInt8} {i : Nat} (hi : i = done.length) :
    writeAt (done ++ old :: rest) i byte = .ok (done ++ byte :: rest) := by
  subst hi
  have hroom : done.length < (done ++ old :: rest).length := by simp
  rw [writeAt, if_pos hroom, List.set_append_right _ _ (Nat.le_refl _), Nat.sub_self]
  rfl

@[simp] theorem HexPanic.ok_bind {α β : Type} (value : α) (next : α → Except HexPanic β) :
    (Except.ok value >>= next) = next value := rfl

@[simp] theorem HexPanic.error_bind {α β : Type} (panic : HexPanic)
    (next : α → Except HexPanic β) :
    ((.error panic : Except HexPanic α) >>= next) = .error panic := rfl

/-- The loop writes the digits of the bytes that are left behind those it has written. -/
theorem writeHex_eq {done pending rest written free : Bytes}
    (hwritten : written.length = done.length * 2) (hroom : pending.length * 2 ≤ free.length) :
    writeHex (done ++ pending ++ rest) pending.length done.length (written ++ free) =
      .ok (written ++ hexText pending ++ free.drop (pending.length * 2)) := by
  induction pending generalizing done written free with
  | nil => simp [writeHex, hexText]
  | cons byte pending ih =>
      -- Two places are free, one for each digit of the byte.
      rw [List.length_cons] at hroom
      obtain ⟨first, free, rfl⟩ := List.exists_cons_of_length_pos (by omega : 0 < free.length)
      rw [List.length_cons] at hroom
      obtain ⟨second, free, rfl⟩ := List.exists_cons_of_length_pos (by omega : 0 < free.length)
      rw [List.length_cons] at hroom
      have hread : readAt (done ++ byte :: pending ++ rest) done.length = .ok byte := by
        rw [List.append_assoc, List.cons_append]
        exact readAt_append rfl
      have hfirst := @writeAt_append written (second :: free) first
        (nibbleToHex (byte >>> 4)) _ hwritten.symm
      have hsecond : writeAt (written ++ nibbleToHex (byte >>> 4) :: second :: free)
          (done.length * 2 + 1) (nibbleToHex (byte &&& 0x0f)) =
          .ok (written ++ [nibbleToHex (byte >>> 4), nibbleToHex (byte &&& 0x0f)] ++ free) := by
        rw [List.append_cons written, writeAt_append (by simp [hwritten])]
        simp
      have hnext := @ih (done ++ [byte])
        (written ++ [nibbleToHex (byte >>> 4), nibbleToHex (byte &&& 0x0f)]) free
        (by simp [hwritten, Nat.succ_mul]) (by omega)
      rw [List.length_append, List.length_singleton, ← List.append_cons done] at hnext
      rw [List.length_cons, writeHex, hread, HexPanic.ok_bind, hfirst, HexPanic.ok_bind,
        HexPanic.ok_bind, hsecond, HexPanic.ok_bind, hnext]
      simp [hexText, Nat.succ_mul]

/-- The loop reads the pairs that are left into bytes behind those it has read. -/
theorem readHex_eq {done pending rest written free : Bytes}
    (hdone : done.length = written.length * 2) (heven : pending.length % 2 = 0)
    (hroom : pending.length / 2 ≤ free.length) :
    readHex (done ++ pending ++ rest) (pending.length / 2) written.length (written ++ free) =
      orReject (decodeHex pending) >>= fun bytes =>
        .ok (written ++ bytes ++ free.drop (pending.length / 2)) := by
  induction pending using decodeHex.induct generalizing done written free with
  | case1 => simp [readHex, decodeHex, orReject]
  | case2 c => simp at heven
  | case3 high low pending ih =>
      have hcount : (high :: low :: pending).length / 2 = pending.length / 2 + 1 := by
        simp only [List.length_cons]
        omega
      have hpending : pending.length % 2 = 0 := by
        simp only [List.length_cons] at heven
        omega
      rw [hcount] at hroom ⊢
      obtain ⟨first, free, rfl⟩ := List.exists_cons_of_length_pos (by omega : 0 < free.length)
      rw [List.length_cons] at hroom
      have hhigh : readAt (done ++ high :: low :: pending ++ rest) (written.length * 2) =
          .ok high := by
        rw [List.append_assoc, List.cons_append]
        exact readAt_append hdone.symm
      have hlow : readAt (done ++ high :: low :: pending ++ rest) (written.length * 2 + 1) =
          .ok low := by
        rw [List.append_cons done, List.append_assoc, List.cons_append]
        exact readAt_append (by simp [hdone])
      rw [readHex, hhigh, HexPanic.ok_bind, hlow, decodeHex]
      cases hexToNibble high with
      | none => rfl
      | some hi =>
          cases hlo : hexToNibble low with
          | none =>
              simp only [orReject, HexPanic.ok_bind, hlo]
              rfl
          | some lo =>
              have hwrite := @writeAt_append written free first ((hi <<< 4) ||| lo) _ rfl
              have hnext := @ih (done ++ [high, low]) (written ++ [(hi <<< 4) ||| lo]) free
                (by simp [hdone, Nat.succ_mul]) hpending (by omega)
              have harray : done ++ high :: low :: pending ++ rest =
                  done ++ [high, low] ++ pending ++ rest := by simp
              rw [List.length_append, List.length_singleton, ← harray,
                ← List.append_cons written] at hnext
              simp only [orReject, HexPanic.ok_bind, hlo, hwrite]
              rw [hnext]
              cases decodeHex pending with
              | none => rfl
              | some bytes =>
                  show Except.ok _ = Except.ok _
                  simp

/-! ### What the functions compute -/

theorem copyIntoSlice_zeros (n : Nat) (bytes : Bytes) :
    copyIntoSlice (List.replicate n 0) bytes =
      if bytes.length ≤ n then .ok (bytes ++ List.replicate (n - bytes.length) 0)
      else .error .outOfBounds := by
  rw [copyIntoSlice, List.length_replicate, List.drop_replicate]

theorem slice_append {front rest : Bytes} {len : Nat} (hlen : front.length = len) :
    slice (front ++ rest) len = .ok front := by
  rw [slice, List.take_left' hlen, if_pos (by rw [List.length_append]; omega)]

/-- Up to 256 bytes there is room for the digits; beyond, the first copy is out of bounds. -/
theorem addressToStringIndexed_eq (codec : Codec) (addr : Address) :
    addressToStringIndexed codec addr =
      (addressToString codec addr).elim (.error .outOfBounds) .ok := by
  unfold addressToStringIndexed addressToString
  generalize codec.addressToXdr addr = xdr
  dsimp only
  rw [copyIntoSlice_zeros]
  by_cases hroom : xdr.length ≤ 256
  · have hdigits : xdr.length * 2 ≤ (List.replicate 512 (0 : UInt8)).length := by
      rw [List.length_replicate]
      omega
    have hwrite := @writeHex_eq [] xdr (List.replicate (256 - xdr.length) 0) [] _ rfl hdigits
    rw [List.nil_append, List.nil_append, List.nil_append, List.length_nil] at hwrite
    rw [if_pos hroom, if_pos hroom, HexPanic.ok_bind, hwrite, HexPanic.ok_bind]
    exact slice_append (length_hexText xdr)
  · rw [if_neg hroom, if_neg hroom, HexPanic.error_bind]
    rfl

/-- A text of even length that fits is decoded, and then the host reads the bytes. -/
theorem stringToAddressIndexed_eq (codec : Codec) (s : HostString) :
    stringToAddressIndexed codec s = orReject (stringToAddress codec s) := by
  unfold stringToAddressIndexed stringToAddress
  by_cases hguard : s.length % 2 ≠ 0 ∨ s.length > 512
  · rw [if_pos hguard, if_pos hguard]
    rfl
  · obtain ⟨heven, hfits⟩ := not_or.mp hguard
    have hbytes : s.length / 2 ≤ (List.replicate 256 (0 : UInt8)).length := by
      rw [List.length_replicate]
      omega
    have hread := @readHex_eq [] s (List.replicate (512 - s.length) 0) [] _ rfl
      (not_not.mp heven) hbytes
    rw [List.nil_append, List.nil_append, List.length_nil] at hread
    rw [if_neg hguard, if_neg hguard, copyIntoSlice_zeros, if_pos (by omega)]
    show (readHex _ _ _ _ >>= _) = _
    rw [hread]
    cases hdecode : decodeHex s with
    | none => rfl
    | some bytes =>
        have hlength : bytes.length = s.length / 2 := by
          rw [← (decodeHex_eq_some.mp hdecode).2, length_hexBytes]
        have hslice := @slice_append bytes ((List.replicate 256 0).drop (s.length / 2)) _ hlength
        simp only [orReject, HexPanic.ok_bind, List.nil_append]
        rw [hslice]
        rfl

theorem stringToAddress_eq_some {codec : Codec} {s : HostString} {addr : Address} :
    stringToAddress codec s = some addr ↔
      IsHex s ∧ s.length ≤ 512 ∧ codec.addressFromXdr (hexBytes s) = some addr := by
  unfold stringToAddress
  constructor
  · intro h
    by_cases hguard : s.length % 2 ≠ 0 ∨ s.length > 512
    · rw [if_pos hguard] at h
      cases h
    · rw [if_neg hguard, Option.bind_eq_bind, Option.bind_eq_some_iff] at h
      obtain ⟨bytes, hbytes, haddr⟩ := h
      obtain ⟨hhex, rfl⟩ := decodeHex_eq_some.mp hbytes
      exact ⟨hhex, by omega, haddr⟩
  · rintro ⟨hhex, hfits, haddr⟩
    have heven := hhex.even
    rw [if_neg (by omega), decodeHex_eq_some.mpr ⟨hhex, rfl⟩]
    exact haddr

theorem orReject_eq_ok {α : Type} {value : α} {found : Option α} :
    orReject found = .ok value ↔ found = some value := by
  cases found <;> simp [orReject]

/-- **The texts of addresses.** An address whose XDR has at most 256 bytes is written
within the arrays and read back. Reading never leaves the arrays and accepts exactly the
texts of up to 512 hexadecimal digits, two a byte, whose bytes the host reads as an address.
Accepted texts stand for the same bytes when they are equal up to the case of their
letters, and only then; where an address has one XDR, so it is for the addresses. -/
theorem address_hex_codec (codec : Codec) :
    (∀ addr, codec.addressFromXdr (codec.addressToXdr addr) = some addr →
      (codec.addressToXdr addr).length ≤ 256 →
      ∃ text, addressToStringIndexed codec addr = .ok text ∧
        stringToAddressIndexed codec text = .ok addr) ∧
    (∀ s, stringToAddressIndexed codec s ≠ .error .outOfBounds) ∧
    (∀ s addr, stringToAddressIndexed codec s = .ok addr ↔
      s.length % 2 = 0 ∧ s.length ≤ 512 ∧ (∀ c ∈ s, HexDigit c) ∧
        codec.addressFromXdr (hexBytes s) = some addr) ∧
    ∀ s t addr addr', stringToAddressIndexed codec s = .ok addr →
      stringToAddressIndexed codec t = .ok addr' →
      (hexBytes s = hexBytes t ↔ EqualUpToCase s t) ∧
        ((∀ bytes a, codec.addressFromXdr bytes = some a → bytes = codec.addressToXdr a) →
          (addr = addr' ↔ EqualUpToCase s t)) := by
  have haccepts : ∀ s addr, stringToAddressIndexed codec s = .ok addr ↔
      IsHex s ∧ s.length ≤ 512 ∧ codec.addressFromXdr (hexBytes s) = some addr := by
    intro s addr
    rw [stringToAddressIndexed_eq, orReject_eq_ok, stringToAddress_eq_some]
  refine ⟨?_, ?_, ?_, ?_⟩
  · intro addr hxdr hroom
    refine ⟨hexText (codec.addressToXdr addr), ?_, (haccepts _ _).mpr ?_⟩
    · rw [addressToStringIndexed_eq, addressToString, if_pos hroom]
      rfl
    · obtain ⟨hhex, hbytes⟩ := decodeHex_eq_some.mp (decodeHex_hexText (codec.addressToXdr addr))
      rw [length_hexText, hbytes]
      exact ⟨hhex, by omega, hxdr⟩
  · intro s
    rw [stringToAddressIndexed_eq]
    cases stringToAddress codec s <;> simp [orReject]
  · intro s addr
    rw [haccepts]
    constructor
    · rintro ⟨hhex, hfits, haddr⟩
      exact ⟨hhex.even, hfits, hhex.digits, haddr⟩
    · rintro ⟨heven, hfits, hdigits, haddr⟩
      exact ⟨⟨heven, hdigits⟩, hfits, haddr⟩
  · intro s t addr addr' hs ht
    obtain ⟨hsHex, -, hsAddr⟩ := (haccepts s addr).mp hs
    obtain ⟨htHex, -, htAddr⟩ := (haccepts t addr').mp ht
    have hbytes := hexBytes_eq_iff hsHex htHex
    refine ⟨hbytes, ?_⟩
    intro hcanonical
    rw [← hbytes]
    constructor
    · rintro rfl
      rw [hcanonical _ _ hsAddr, hcanonical _ _ htAddr]
    · intro hsame
      rw [hsame, htAddr] at hsAddr
      exact (Option.some.inj hsAddr).symm

/-! ### The XDR of the host -/

/-- What the XDR of an account and that of a contract begin with. -/
def accountHeader : Bytes := ScVal.uint32 18 ++ ScVal.uint32 0 ++ ScVal.uint32 0

def contractHeader : Bytes := ScVal.uint32 18 ++ ScVal.uint32 1

/-- `Address::from_xdr`: nothing but what `to_xdr` writes. -/
def readAddressXdr (bytes : Bytes) : Option Address :=
  if h : bytes.length = 44 ∧ bytes.take 12 = accountHeader then
    some (.account ⟨bytes.drop 12, by rw [List.length_drop, h.1]⟩)
  else if h : bytes.length = 40 ∧ bytes.take 8 = contractHeader then
    some (.contract ⟨bytes.drop 8, by rw [List.length_drop, h.1]⟩)
  else none

def xdrCodec : Codec where
  addressToXdr := addressXdr
  addressFromXdr := readAddressXdr
  packetFromXdr _ := none

theorem addressXdr_account (key : BytesN 32) :
    addressXdr (.account key) = accountHeader ++ key.val := rfl

theorem addressXdr_contract (id : BytesN 32) :
    addressXdr (.contract id) = contractHeader ++ id.val := rfl

theorem length_account (key : BytesN 32) : (addressXdr (.account key)).length = 44 := by
  have hheader : accountHeader.length = 12 := by decide
  rw [addressXdr_account, List.length_append, hheader, key.property]

theorem length_contract (id : BytesN 32) : (addressXdr (.contract id)).length = 40 := by
  have hheader : contractHeader.length = 8 := by decide
  rw [addressXdr_contract, List.length_append, hheader, id.property]

theorem length_addressXdr_le (addr : Address) : (addressXdr addr).length ≤ 256 := by
  cases addr with
  | account key =>
      rw [length_account]
      decide
  | contract id =>
      rw [length_contract]
      decide

theorem readAddressXdr_addressXdr (addr : Address) :
    readAddressXdr (addressXdr addr) = some addr := by
  cases addr with
  | account key =>
      have htake : (addressXdr (.account key)).take 12 = accountHeader :=
        List.take_left' (by decide)
      have hdrop : (addressXdr (.account key)).drop 12 = key.val := List.drop_left' (by decide)
      rw [readAddressXdr, dif_pos ⟨length_account key, htake⟩]
      simp only [hdrop]
  | contract id =>
      have hlength := length_contract id
      have htake : (addressXdr (.contract id)).take 8 = contractHeader :=
        List.take_left' (by decide)
      have hdrop : (addressXdr (.contract id)).drop 8 = id.val := List.drop_left' (by decide)
      rw [readAddressXdr, dif_neg (by omega), dif_pos ⟨hlength, htake⟩]
      simp only [hdrop]

theorem eq_addressXdr_of_read {bytes : Bytes} {addr : Address}
    (h : readAddressXdr bytes = some addr) : bytes = addressXdr addr := by
  unfold readAddressXdr at h
  split at h
  · rename_i haccount
    obtain rfl := Option.some.inj h
    rw [addressXdr_account, ← haccount.2, List.take_append_drop]
  · split at h
    · rename_i hcontract
      obtain rfl := Option.some.inj h
      rw [addressXdr_contract, ← hcontract.2, List.take_append_drop]
    · cases h

/-- The address of a contract, and its text with capital letters. -/
def lettersAddress : Address := .contract (.fill 32 0xab)

def capitalText : HostString :=
  ascii "0000001200000001ABABABABABABABABABABABABABABABABABABABABABABABABABABABABABABABAB"

theorem address_hex_codec_letters :
    (∃ text, addressToStringIndexed xdrCodec lettersAddress = .ok text ∧
      stringToAddressIndexed xdrCodec text = .ok lettersAddress ∧ text ≠ capitalText ∧
        EqualUpToCase text capitalText) ∧
      stringToAddressIndexed xdrCodec capitalText = .ok lettersAddress := by
  obtain ⟨hwritten, -, haccepts, hsame⟩ := address_hex_codec xdrCodec
  obtain ⟨text, htext, hread⟩ := hwritten lettersAddress (readAddressXdr_addressXdr lettersAddress)
    (length_addressXdr_le lettersAddress)
  have hdigits : ∀ c ∈ capitalText, HexDigit c := by
    have hall : capitalText.all (fun c => decide (HexDigit c)) = true := by decide
    intro c hc
    exact of_decide_eq_true (List.all_eq_true.mp hall c hc)
  have hcapital : stringToAddressIndexed xdrCodec capitalText = .ok lettersAddress :=
    (haccepts _ _).mpr ⟨by decide, by decide, hdigits, by decide⟩
  refine ⟨⟨text, htext, hread, ?_, ?_⟩, hcapital⟩
  · rintro rfl
    revert htext
    decide +kernel
  · exact ((hsame _ _ _ _ hread hcapital).2 fun _ _ => eq_addressXdr_of_read).mp rfl

end StellarIbc.Transfer
