import StellarIbc.ByteParser
import StellarIbc.Utf8
import Mathlib.Data.List.Nodup

/-!
# JSON texts

A reference parser for the JSON grammar of RFC 8259 over bytes: a text is UTF-8, holds
one value between white space, and a string is read with its escapes resolved.  The
second half is about texts that were put together by hand: member values placed between
quotes as they are, with nothing escaped.  Such a value reads back as itself exactly
when it has no byte that the grammar wants escaped, wherever the text goes on from there.
-/

namespace StellarIbc.Json

open ByteParser

inductive Value where
  | null
  | bool (value : Bool)
  | number (lexeme : Bytes)
  | string (text : Bytes)
  | array (items : List Value)
  | object (members : List (Bytes × Value))

/-! ### Tokens -/

def quote : UInt8 := 0x22
def backslash : UInt8 := 0x5c
def comma : UInt8 := 0x2c
def colon : UInt8 := 0x3a
def openBrace : UInt8 := 0x7b
def closeBrace : UInt8 := 0x7d
def openBracket : UInt8 := 0x5b
def closeBracket : UInt8 := 0x5d

def isSpace (byte : UInt8) : Bool :=
  byte == 0x20 || byte == 0x09 || byte == 0x0a || byte == 0x0d

def isDigit (byte : UInt8) : Bool := decide (0x30 ≤ byte ∧ byte ≤ 0x39)

/-- Skip the bytes that satisfy `p` and return them. -/
def span (p : UInt8 → Bool) : ByteParser Bytes := fun bytes =>
  some (bytes.takeWhile p, bytes.dropWhile p)

def space : ByteParser Unit := do
  let _ ← span isSpace
  return ()

/-- The next byte, left in place. -/
def peek : ByteParser (Option UInt8) := fun bytes => some (bytes.head?, bytes)

def expect (expected : UInt8) : ByteParser Unit := do
  let first ← byte
  if first = expected then return () else fail

/-- One of the six structural characters, with the white space around it. -/
def structural (expected : UInt8) : ByteParser Unit := do
  space
  expect expected
  space

def literal (text : Bytes) (value : Value) : ByteParser Value := do
  let taken ← take text.length
  if taken = text then return value else fail

/-! ### Numbers -/

def digits1 : ByteParser Bytes := do
  let digits ← span isDigit
  if digits = [] then fail else return digits

/-- `int`: a zero, or digits that do not start with one. -/
def integer : ByteParser Bytes := do
  let digits ← digits1
  if 1 < digits.length ∧ digits.head? = some 0x30 then fail else return digits

/-- A byte that satisfies `p`, if the next one does. -/
def optionalByte (p : UInt8 → Bool) : ByteParser Bytes := do
  let next ← peek
  if next.any p then
    let first ← byte
    return [first]
  else
    return []

/-- `p` after a byte that announces it. -/
def announced (mark : UInt8 → Bool) (p : ByteParser Bytes) : ByteParser Bytes := do
  let marked ← optionalByte mark
  if marked = [] then
    return []
  else
    let rest ← p
    return marked ++ rest

def exponent : ByteParser Bytes := do
  let sign ← optionalByte fun byte => byte == 0x2b || byte == 0x2d
  let digits ← digits1
  return sign ++ digits

def number : ByteParser Value := do
  let sign ← optionalByte (· == 0x2d)
  let int ← integer
  let frac ← announced (· == 0x2e) digits1
  let exp ← announced (fun byte => byte == 0x65 || byte == 0x45) exponent
  return .number (sign ++ int ++ frac ++ exp)

/-! ### Strings -/

def hexDigit (byte : UInt8) : Option Nat :=
  if 0x30 ≤ byte ∧ byte ≤ 0x39 then some (byte.toNat - 0x30)
  else if 0x41 ≤ byte ∧ byte ≤ 0x46 then some (byte.toNat - 0x41 + 10)
  else if 0x61 ≤ byte ∧ byte ≤ 0x66 then some (byte.toNat - 0x61 + 10)
  else none

def hex : ByteParser Nat := do
  let first ← byte
  ofOption (hexDigit first)

/-- The four digits of `\uXXXX`. -/
def hex4 : ByteParser Nat := do
  let a ← hex
  let b ← hex
  let c ← hex
  let d ← hex
  return ((a * 16 + b) * 16 + c) * 16 + d

def continuation (bits : Nat) : UInt8 := UInt8.ofNat (0x80 + bits % 64)

/-- The UTF-8 bytes of a code point. -/
def utf8 (code : Nat) : Bytes :=
  if code < 0x80 then [UInt8.ofNat code]
  else if code < 0x800 then [UInt8.ofNat (0xc0 + code / 64), continuation code]
  else if code < 0x10000 then
    [UInt8.ofNat (0xe0 + code / 4096), continuation (code / 64), continuation code]
  else
    [UInt8.ofNat (0xf0 + code / 262144), continuation (code / 4096),
      continuation (code / 64), continuation code]

/-- `\uXXXX`, after the `u`.  A high surrogate needs its low one; a surrogate on its own
names no character. -/
def unicodeEscape : ByteParser Bytes := do
  let code ← hex4
  if 0xd800 ≤ code ∧ code < 0xdc00 then
    expect backslash
    expect 0x75
    let low ← hex4
    if 0xdc00 ≤ low ∧ low < 0xe000 then
      return utf8 (0x10000 + (code - 0xd800) * 1024 + (low - 0xdc00))
    else
      fail
  else if 0xdc00 ≤ code ∧ code < 0xe000 then
    fail
  else
    return utf8 code

/-- The escapes of one byte, `\b`, `\f`, `\n`, `\r`, `\t` and the three that stand for
themselves. -/
def shortEscape (byte : UInt8) : Option UInt8 :=
  if byte = quote ∨ byte = backslash ∨ byte = 0x2f then some byte
  else if byte = 0x62 then some 0x08
  else if byte = 0x66 then some 0x0c
  else if byte = 0x6e then some 0x0a
  else if byte = 0x72 then some 0x0d
  else if byte = 0x74 then some 0x09
  else none

/-- What stands after a backslash. -/
def escape : ByteParser Bytes := do
  let first ← byte
  if first = 0x75 then
    unicodeEscape
  else
    let value ← ofOption (shortEscape first)
    return [value]

/-- The rest of a string, after its opening quote. -/
def stringBody : Nat → ByteParser Bytes
  | 0 => fail
  | fuel + 1 => do
      let first ← byte
      if first = quote then
        return []
      else if first = backslash then
        let value ← escape
        let rest ← stringBody fuel
        return value ++ rest
      else if first < 0x20 then
        fail
      else
        let rest ← stringBody fuel
        return first :: rest

def string : ByteParser Bytes := do
  expect quote
  let bytes ← get
  stringBody bytes.length

/-! ### Values -/

/-- One or more `p`, separated by commas. -/
def commaSeparated {α : Type} (p : ByteParser α) : Nat → ByteParser (List α)
  | 0 => fail
  | fuel + 1 => do
      let first ← p
      space
      let next ← peek
      if next = some comma then
        structural comma
        let rest ← commaSeparated p fuel
        return first :: rest
      else
        return [first]

/-- Items between brackets. -/
def bracketed {α : Type} (opening closing : UInt8) (p : ByteParser α) (fuel : Nat) :
    ByteParser (List α) := do
  structural opening
  let next ← peek
  if next = some closing then
    expect closing
    return []
  else
    let items ← commaSeparated p fuel
    space
    expect closing
    return items

def member (p : ByteParser Value) : ByteParser (Bytes × Value) := do
  let key ← string
  structural colon
  let value ← p
  return (key, value)

/-- A value; `fuel` bounds its nesting and the number of its items. -/
def value : Nat → ByteParser Value
  | 0 => fail
  | fuel + 1 => do
      let next ← peek
      if next = some openBrace then
        let members ← bracketed openBrace closeBrace (member (value fuel)) fuel
        return .object members
      else if next = some openBracket then
        let items ← bracketed openBracket closeBracket (value fuel) fuel
        return .array items
      else if next = some quote then
        let text ← string
        return .string text
      else if next = some 0x6e then
        literal (ascii "null") .null
      else if next = some 0x74 then
        literal (ascii "true") (.bool true)
      else if next = some 0x66 then
        literal (ascii "false") (.bool false)
      else
        number

/-- `ws value ws`. -/
def document (fuel : Nat) : ByteParser Value := do
  space
  let result ← value fuel
  space
  return result

/-- The value of a JSON text. -/
def parse (text : Bytes) : Option Value :=
  if Utf8.valid text then
    match (document (text.length + 1)).run text with
    | some (result, []) => some result
    | _ => none
  else
    none

/-- The last member of a name. -/
def lastMember (key : Bytes) (members : List (Bytes × Value)) : Option Value :=
  (members.reverse.find? fun member => member.1 == key).map Prod.snd

/-- What a reader finds under `key` that expects a string there and lets later members
of a name replace earlier ones. -/
def readLast (key text : Bytes) : Option Bytes :=
  match parse text with
  | some (.object members) =>
      match lastMember key members with
      | some (.string value) => some value
      | _ => none
  | _ => none

theorem readLast_eq_some {key text value : Bytes} {members : List (Bytes × Value)}
    (hparse : parse text = some (.object members))
    (hlast : lastMember key members = some (.string value)) :
    readLast key text = some value := by
  rw [readLast, hparse]
  dsimp only
  rw [hlast]

/-! ### When the small parsers succeed -/

variable {α : Type} {bytes rest : Bytes}

@[simp] theorem parses_span {p : UInt8 → Bool} {taken : Bytes} :
    Parses (span p) bytes taken rest ↔
      taken = bytes.takeWhile p ∧ rest = bytes.dropWhile p := by
  simp [Parses, span, StateT.run, eq_comm]

@[simp] theorem parses_space {result : Unit} :
    Parses space bytes result rest ↔ rest = bytes.dropWhile isSpace := by
  simp only [space, parses_bind, parses_span, parses_pure]
  constructor
  · rintro ⟨_, _, ⟨-, rfl⟩, -, rfl⟩
    rfl
  · rintro rfl
    exact ⟨_, _, ⟨rfl, rfl⟩, trivial, rfl⟩

@[simp] theorem parses_peek {next : Option UInt8} :
    Parses peek bytes next rest ↔ next = bytes.head? ∧ rest = bytes := by
  simp [Parses, peek, StateT.run, eq_comm]

@[simp] theorem parses_get {result : Bytes} :
    Parses get bytes result rest ↔ result = bytes ∧ rest = bytes := by
  simp [Parses, eq_comm]

@[simp] theorem parses_expect {expected : UInt8} {result : Unit} :
    Parses (expect expected) bytes result rest ↔ bytes = expected :: rest := by
  simp only [expect, parses_bind, parses_byte, parses_ite, parses_pure, parses_fail,
    and_false, or_false]
  constructor
  · rintro ⟨first, middle, rfl, rfl, -, rfl⟩
    rfl
  · rintro rfl
    exact ⟨expected, rest, rfl, rfl, trivial, rfl⟩

/-- A structural character in front of the text is read with the space after it. -/
theorem parses_structural {expected : UInt8} (hexpected : isSpace expected = false)
    {result : Unit} :
    Parses (structural expected) (expected :: bytes) result rest ↔
      rest = bytes.dropWhile isSpace := by
  simp only [structural, parses_bind, parses_space, parses_expect]
  constructor
  · rintro ⟨_, middle, rfl, _, middle', hexpect, rfl⟩
    rw [List.dropWhile_cons_of_neg (by simp [hexpected])] at hexpect
    rw [(List.cons.inj hexpect).2]
  · rintro rfl
    refine ⟨(), _, rfl, (), bytes, ?_, rfl⟩
    rw [List.dropWhile_cons_of_neg (by simp [hexpected])]

/-! ### Texts that need no escapes -/

/-- The byte may stand in a string as it is. -/
def unescaped (byte : UInt8) : Bool :=
  decide (byte ≠ quote ∧ byte ≠ backslash ∧ ¬ byte < 0x20)

theorem unescaped_iff {byte : UInt8} :
    unescaped byte = true ↔ byte ≠ quote ∧ byte ≠ backslash ∧ ¬ byte < 0x20 := by
  simp [unescaped]

theorem parses_stringBody_of_unescaped {text : Bytes} {fuel : Nat}
    (htext : ∀ byte ∈ text, unescaped byte = true) (hfuel : text.length < fuel) :
    Parses (stringBody fuel) (text ++ quote :: rest) text rest := by
  induction text generalizing fuel with
  | nil =>
      obtain ⟨fuel, rfl⟩ := Nat.exists_eq_add_of_lt hfuel
      simp [stringBody]
  | cons first text ih =>
      cases fuel with
      | zero => simp at hfuel
      | succ fuel =>
          obtain ⟨hfirst, htext⟩ := List.forall_mem_cons.mp htext
          obtain ⟨hquote, hbackslash, hcontrol⟩ := unescaped_iff.mp hfirst
          have hrest := ih htext (Nat.lt_of_succ_lt_succ hfuel)
          simp only [stringBody, List.cons_append, parses_bind, parses_byte,
            parses_ite, parses_pure]
          refine ⟨first, text ++ quote :: rest, rfl, .inr ⟨hquote, .inr ⟨hbackslash,
            .inr ⟨hcontrol, text, rest, hrest, rfl, rfl⟩⟩⟩⟩

/-! ### Escapes end inside the text they start in -/

/-- Before a quote, `p` reads exactly `n` bytes and not the quote. -/
def ReadsWithin (p : ByteParser α) (n : Nat) : Prop :=
  ∀ text tail result rest, Parses p (text ++ quote :: tail) result rest →
    ∃ used left, used.length = n ∧ text = used ++ left ∧ rest = left ++ quote :: tail

theorem ReadsWithin.pure (result : α) : ReadsWithin (Pure.pure result : ByteParser α) 0 := by
  intro text tail value rest h
  obtain ⟨-, rfl⟩ := parses_pure.mp h
  exact ⟨[], text, rfl, rfl, rfl⟩

theorem ReadsWithin.bind {β : Type} {p : ByteParser α} {q : α → ByteParser β} {n m : Nat}
    (hp : ReadsWithin p n) (hq : ∀ value, ReadsWithin (q value) m) :
    ReadsWithin (p >>= q) (n + m) := by
  intro text tail result rest h
  obtain ⟨value, middle, hfirst, hsecond⟩ := parses_bind.mp h
  obtain ⟨used, left, hused, rfl, rfl⟩ := hp _ _ _ _ hfirst
  obtain ⟨used', left', hused', rfl, rfl⟩ := hq value _ _ _ _ hsecond
  refine ⟨used ++ used', left', ?_, ?_, rfl⟩
  · rw [List.length_append, hused, hused']
  · rw [List.append_assoc]

theorem ReadsWithin.expect {expected : UInt8} (hexpected : expected ≠ quote) :
    ReadsWithin (expect expected) 1 := by
  intro text tail result rest h
  rw [parses_expect] at h
  cases text with
  | nil => exact absurd (List.cons.inj h).1.symm hexpected
  | cons first text =>
      obtain ⟨rfl, rfl⟩ := List.cons.inj h
      exact ⟨[first], text, rfl, rfl, rfl⟩

theorem readsWithin_hex : ReadsWithin hex 1 := by
  intro text tail result rest h
  simp only [hex, parses_bind, parses_byte, parses_ofOption] at h
  obtain ⟨first, middle, htext, hdigit, rfl⟩ := h
  cases text with
  | nil =>
      obtain ⟨rfl, -⟩ := List.cons.inj htext
      exact absurd hdigit (by decide +revert)
  | cons byte text =>
      obtain ⟨rfl, rfl⟩ := List.cons.inj htext
      exact ⟨[byte], text, rfl, rfl, rfl⟩

theorem readsWithin_hex4 : ReadsWithin hex4 (1 + (1 + (1 + (1 + 0)))) := by
  unfold hex4
  refine readsWithin_hex.bind fun a => ?_
  refine readsWithin_hex.bind fun b => ?_
  refine readsWithin_hex.bind fun c => ?_
  exact readsWithin_hex.bind fun d => ReadsWithin.pure _

theorem length_utf8_le (code : Nat) : (utf8 code).length ≤ 4 := by
  unfold utf8
  split_ifs <;> simp

/-- A `\u` escape is at least as long as the character it stands for. -/
theorem unicodeEscape_within {text tail result : Bytes}
    (h : Parses unicodeEscape (text ++ quote :: tail) result rest) :
    ∃ used left, text = used ++ left ∧ rest = left ++ quote :: tail ∧
      result.length ≤ used.length := by
  unfold unicodeEscape at h
  obtain ⟨code, middle, hcode, h⟩ := parses_bind.mp h
  obtain ⟨used, left, hused, rfl, rfl⟩ := readsWithin_hex4 _ _ _ _ hcode
  rcases parses_ite.mp h with ⟨-, h⟩ | ⟨-, h⟩
  · simp only [parses_bind] at h
    obtain ⟨_, _, hbackslash, _, _, hu, low, _, hlow, h⟩ := h
    obtain ⟨used₁, left₁, -, rfl, rfl⟩ :=
      ReadsWithin.expect (by decide) _ _ _ _ hbackslash
    obtain ⟨used₂, left₂, -, rfl, rfl⟩ := ReadsWithin.expect (by decide) _ _ _ _ hu
    obtain ⟨used₃, left₃, -, rfl, rfl⟩ := readsWithin_hex4 _ _ _ _ hlow
    simp only [parses_ite, parses_pure, parses_fail, and_false, or_false] at h
    have hresult : result.length ≤ 4 := h.2.1 ▸ length_utf8_le _
    refine ⟨used ++ used₁ ++ used₂ ++ used₃, left₃, by simp, h.2.2, ?_⟩
    apply Nat.le_trans hresult
    simp only [List.length_append]
    omega
  · simp only [parses_ite, parses_pure, parses_fail, and_false, false_or] at h
    obtain ⟨-, rfl, rfl⟩ := h
    exact ⟨used, left, rfl, rfl, Nat.le_trans (length_utf8_le code) (Nat.le_of_eq hused.symm)⟩

/-- What follows a backslash ends inside the text, or the text ends with the backslash
and the quote after the text is escaped. -/
theorem escape_cases {text tail result : Bytes}
    (h : Parses escape (text ++ quote :: tail) result rest) :
    (text = [] ∧ result = [quote] ∧ rest = tail) ∨
      ∃ used left, text = used ++ left ∧ rest = left ++ quote :: tail ∧
        result.length ≤ used.length := by
  simp only [escape, parses_bind, parses_byte, parses_ite, parses_ofOption,
    parses_pure] at h
  obtain ⟨first, middle, htext, h⟩ := h
  cases text with
  | nil =>
      obtain ⟨rfl, rfl⟩ := List.cons.inj htext
      have hshort : shortEscape quote = some quote := by decide
      rcases h with ⟨hu, -⟩ | ⟨-, value, _, ⟨hvalue, rfl⟩, rfl, rfl⟩
      · exact absurd hu (by decide)
      · rw [hshort, Option.some.injEq] at hvalue
        exact .inl ⟨rfl, by rw [hvalue], rfl⟩
  | cons byte text =>
      obtain ⟨rfl, rfl⟩ := List.cons.inj htext
      rcases h with ⟨-, hunicode⟩ | ⟨-, value, _, ⟨-, rfl⟩, rfl, rfl⟩
      · obtain ⟨used, left, rfl, rfl, hlength⟩ := unicodeEscape_within hunicode
        exact .inr ⟨byte :: used, left, rfl, rfl, Nat.le_succ_of_le hlength⟩
      · exact .inr ⟨[byte], text, rfl, rfl, Nat.le_refl 1⟩

/-! ### Texts placed between quotes as they are -/

/-- What may follow the closing quote of a member value: one more byte that stands for
itself, and then the quote of the next member or the end. -/
def Follows (next : UInt8) (after : Bytes) : Prop :=
  unescaped next = true ∧ (after = [] ∨ ∃ more, after = quote :: more)

theorem stringBody_after_quote {after result : Bytes} {next : UInt8} {fuel : Nat}
    (hfollows : Follows next after)
    (h : Parses (stringBody fuel) (next :: after) result rest) : result = [next] := by
  obtain ⟨hnext, hafter⟩ := hfollows
  obtain ⟨hquote, hbackslash, hcontrol⟩ := unescaped_iff.mp hnext
  cases fuel with
  | zero => exact absurd h parses_fail
  | succ fuel =>
      simp only [stringBody, parses_bind, parses_byte] at h
      obtain ⟨first, middle, hfirst, h⟩ := h
      obtain ⟨rfl, rfl⟩ := List.cons.inj hfirst
      rw [if_neg hquote, if_neg hbackslash, if_neg hcontrol] at h
      obtain ⟨tail, middle, htail, h⟩ := parses_bind.mp h
      obtain ⟨rfl, rfl⟩ := parses_pure.mp h
      rcases hafter with rfl | ⟨more, rfl⟩
      · cases fuel with
        | zero => exact absurd htail parses_fail
        | succ fuel => simp [stringBody] at htail
      · cases fuel with
        | zero => exact absurd htail parses_fail
        | succ fuel =>
            rw [stringBody] at htail
            obtain ⟨first, rest', hfirst, htail⟩ := parses_bind.mp htail
            obtain ⟨rfl, rfl⟩ := List.cons.inj (parses_byte.mp hfirst)
            rw [if_pos rfl] at htail
            obtain ⟨rfl, -⟩ := parses_pure.mp htail
            rfl

/-- A string whose text was not escaped is read as that text, or comes out shorter, or
swallows its closing quote and then ends with the byte after it. -/
theorem stringBody_cases {text after result : Bytes} {next : UInt8} {fuel : Nat}
    (hfollows : Follows next after)
    (h : Parses (stringBody fuel) (text ++ quote :: next :: after) result rest) :
    ((∀ byte ∈ text, unescaped byte = true) ∧ result = text ∧ rest = next :: after) ∨
      result.length < text.length ∨
      ((∃ init, text = init ++ [backslash]) ∧ ∃ init, result = init ++ [next]) := by
  induction fuel generalizing text result rest with
  | zero => exact absurd h parses_fail
  | succ fuel ih =>
      rw [stringBody] at h
      obtain ⟨first, middle, hfirst, h⟩ := parses_bind.mp h
      rw [parses_byte] at hfirst
      cases text with
      | nil =>
          obtain ⟨rfl, rfl⟩ := List.cons.inj hfirst
          rw [if_pos rfl] at h
          obtain ⟨rfl, rfl⟩ := parses_pure.mp h
          exact .inl ⟨by simp, rfl, rfl⟩
      | cons byte text =>
          obtain ⟨rfl, rfl⟩ := List.cons.inj hfirst
          rcases parses_ite.mp h with ⟨-, h⟩ | ⟨hquote, h⟩
          · obtain ⟨rfl, -⟩ := parses_pure.mp h
            exact .inr (.inl (Nat.succ_pos _))
          rcases parses_ite.mp h with ⟨hbackslash, h⟩ | ⟨hbackslash, h⟩
          · obtain ⟨value, middle, hescape, h⟩ := parses_bind.mp h
            obtain ⟨tail, middle', htail, h⟩ := parses_bind.mp h
            obtain ⟨rfl, rfl⟩ := parses_pure.mp h
            rcases escape_cases hescape with ⟨rfl, rfl, rfl⟩ | ⟨used, left, rfl, rfl, hused⟩
            · -- The escape takes the closing quote: one more byte, and the string ends.
              subst hbackslash
              obtain rfl := stringBody_after_quote hfollows htail
              exact .inr (.inr ⟨⟨[], rfl⟩, [quote], rfl⟩)
            · rcases ih htail with ⟨-, rfl, -⟩ | hshort | ⟨⟨init, rfl⟩, init', rfl⟩
              · refine .inr (.inl ?_)
                simp only [List.length_append, List.length_cons]
                omega
              · refine .inr (.inl ?_)
                simp only [List.length_append, List.length_cons]
                omega
              · exact .inr (.inr ⟨⟨byte :: used ++ init, by simp⟩, value ++ init', by simp⟩)
          · rcases parses_ite.mp h with ⟨-, h⟩ | ⟨hcontrol, h⟩
            · exact absurd h parses_fail
            obtain ⟨tail, middle, htail, h⟩ := parses_bind.mp h
            obtain ⟨rfl, rfl⟩ := parses_pure.mp h
            rcases ih htail with ⟨htext, rfl, rfl⟩ | hshort | ⟨⟨init, rfl⟩, init', rfl⟩
            · have hbyte := unescaped_iff.mpr ⟨hquote, hbackslash, hcontrol⟩
              exact .inl ⟨List.forall_mem_cons.mpr ⟨hbyte, htext⟩, rfl, rfl⟩
            · exact .inr (.inl (Nat.succ_lt_succ hshort))
            · exact .inr (.inr ⟨⟨byte :: init, rfl⟩, byte :: init', rfl⟩)

/-- An unescaped text that reads back as itself has nothing to escape, and the reader
stops at its closing quote. -/
theorem unescaped_of_parses {text after : Bytes} {next : UInt8} {fuel : Nat}
    (hfollows : Follows next after)
    (h : Parses (stringBody fuel) (text ++ quote :: next :: after) text rest) :
    (∀ byte ∈ text, unescaped byte = true) ∧ rest = next :: after := by
  rcases stringBody_cases hfollows h with
    ⟨htext, -, hrest⟩ | hshort | ⟨⟨init, hinit⟩, init', hinit'⟩
  · exact ⟨htext, hrest⟩
  · exact absurd hshort (Nat.lt_irrefl _)
  · obtain ⟨-, hnext⟩ := List.append_inj' (hinit.symm.trans hinit') rfl
    have hbackslash := (unescaped_iff.mp hfollows.1).2.1
    exact absurd (List.singleton_inj.mp hnext).symm hbackslash

/-! ### Objects put together by hand -/

/-- `"key":"value"`, with nothing escaped. -/
def memberText (field : Bytes × Bytes) : Bytes :=
  quote :: field.1 ++ quote :: colon :: quote :: field.2 ++ [quote]

/-- The members after the first one, and the closing brace. -/
def membersTail : List (Bytes × Bytes) → Bytes
  | [] => [closeBrace]
  | field :: more => comma :: memberText field ++ membersTail more

/-- The object of these members, with nothing escaped. -/
def objectText (first : Bytes × Bytes) (more : List (Bytes × Bytes)) : Bytes :=
  openBrace :: (memberText first ++ membersTail more)

/-- What the object ought to be read as. -/
def membersOf (fields : List (Bytes × Bytes)) : List (Bytes × Value) :=
  fields.map fun field => (field.1, .string field.2)

def AllUnescaped (text : Bytes) : Prop := ∀ byte ∈ text, unescaped byte = true

/-- The text may stand between quotes as it is. -/
def Verbatim (text : Bytes) : Prop := Utf8.valid text = true ∧ AllUnescaped text

theorem verbatim_iff_all {text : Bytes} :
    (Utf8.valid text && text.all unescaped) = true ↔ Verbatim text := by
  rw [Bool.and_eq_true, List.all_eq_true]
  exact Iff.rfl

instance (text : Bytes) : Decidable (Verbatim text) := decidable_of_iff _ verbatim_iff_all

theorem memberText_append (field : Bytes × Bytes) (tail : Bytes) :
    memberText field ++ tail =
      quote :: (field.1 ++ quote :: colon :: quote :: (field.2 ++ quote :: tail)) := by
  simp [memberText]

theorem membersTail_follows (more : List (Bytes × Bytes)) :
    ∃ next after, membersTail more = next :: after ∧ Follows next after ∧
      isSpace next = false := by
  cases more with
  | nil => exact ⟨closeBrace, [], rfl, ⟨by decide, .inl rfl⟩, by decide⟩
  | cons field more =>
      refine ⟨comma, memberText field ++ membersTail more, rfl, ⟨by decide, .inr ?_⟩,
        by decide⟩
      exact ⟨_, memberText_append field _⟩

theorem length_le_membersTail (more : List (Bytes × Bytes)) :
    more.length ≤ (membersTail more).length := by
  induction more with
  | nil => simp
  | cons field more ih =>
      simp only [membersTail, List.length_cons, List.length_append]
      omega

theorem parses_string_of_unescaped {text : Bytes} (htext : AllUnescaped text) :
    Parses string (quote :: (text ++ quote :: rest)) text rest := by
  simp only [string, parses_bind, parses_expect, parses_get]
  refine ⟨(), _, rfl, _, _, ⟨rfl, rfl⟩, ?_⟩
  exact parses_stringBody_of_unescaped htext (by simp)

theorem parses_string_iff {result : Bytes} :
    Parses string (quote :: bytes) result rest ↔
      Parses (stringBody bytes.length) bytes result rest := by
  simp only [string, parses_bind, parses_expect, parses_get]
  constructor
  · rintro ⟨_, middle, hquote, _, _, ⟨rfl, rfl⟩, h⟩
    rw [(List.cons.inj hquote).2]
    exact h
  · intro h
    exact ⟨(), bytes, rfl, bytes, bytes, ⟨rfl, rfl⟩, h⟩

/-- A value that starts with a quote is a string. -/
theorem parses_value_quote {fuel : Nat} {result : Value} :
    Parses (value (fuel + 1)) (quote :: bytes) result rest ↔
      ∃ text, result = .string text ∧
        Parses (stringBody bytes.length) bytes text rest := by
  have hbrace : ¬ some quote = some openBrace := by decide
  have hbracket : ¬ some quote = some openBracket := by decide
  rw [value, parses_bind]
  constructor
  · rintro ⟨next, middle, hpeek, h⟩
    obtain ⟨rfl, rfl⟩ := parses_peek.mp hpeek
    rw [List.head?_cons, if_neg hbrace, if_neg hbracket, if_pos rfl] at h
    obtain ⟨text, middle, htext, h⟩ := parses_bind.mp h
    obtain ⟨rfl, rfl⟩ := parses_pure.mp h
    exact ⟨text, rfl, parses_string_iff.mp htext⟩
  · rintro ⟨text, rfl, htext⟩
    refine ⟨some quote, quote :: bytes, parses_peek.mpr ⟨rfl, rfl⟩, ?_⟩
    rw [if_neg hbrace, if_neg hbracket, if_pos rfl]
    exact parses_bind.mpr ⟨text, rest, parses_string_iff.mpr htext, parses_pure.mpr ⟨rfl, rfl⟩⟩

/-- Reading a member whose key needs no escapes comes down to reading its value. -/
theorem parses_member_iff {field : Bytes × Bytes} {tail : Bytes} {fuel : Nat}
    {result : Bytes × Value} (hkey : AllUnescaped field.1) :
    Parses (member (value (fuel + 1))) (memberText field ++ tail) result rest ↔
      ∃ text, result = (field.1, .string text) ∧
        Parses (stringBody (field.2 ++ quote :: tail).length) (field.2 ++ quote :: tail)
          text rest := by
  have hspace : (quote :: (field.2 ++ quote :: tail)).dropWhile isSpace =
      quote :: (field.2 ++ quote :: tail) :=
    List.dropWhile_cons_of_neg (by decide)
  have hstring : Parses string
      (quote :: (field.1 ++ quote :: colon :: quote :: (field.2 ++ quote :: tail))) field.1
      (colon :: quote :: (field.2 ++ quote :: tail)) :=
    parses_string_of_unescaped hkey
  rw [memberText_append, member, parses_bind]
  constructor
  · rintro ⟨key, middle, hmember, h⟩
    obtain ⟨rfl, rfl⟩ := hmember.deterministic hstring
    obtain ⟨_, middle, hcolon, h⟩ := parses_bind.mp h
    obtain rfl := (parses_structural (by decide)).mp hcolon
    rw [hspace] at h
    obtain ⟨item, middle, hitem, h⟩ := parses_bind.mp h
    obtain ⟨rfl, rfl⟩ := parses_pure.mp h
    obtain ⟨text, rfl, htext⟩ := parses_value_quote.mp hitem
    exact ⟨text, rfl, htext⟩
  · rintro ⟨text, rfl, htext⟩
    have hvalue : Parses (value (fuel + 1)) (quote :: (field.2 ++ quote :: tail))
        (.string text) rest :=
      parses_value_quote.mpr ⟨text, rfl, htext⟩
    refine ⟨field.1, _, hstring, parses_bind.mpr ⟨(), _, ?_, parses_bind.mpr
      ⟨_, rest, hvalue, parses_pure.mpr ⟨rfl, rfl⟩⟩⟩⟩
    exact (parses_structural (by decide)).mpr hspace.symm

theorem parses_commaSeparated_head {p : ByteParser α} {fuel : Nat} {items : List α}
    (h : Parses (commaSeparated p (fuel + 1)) bytes items rest) :
    ∃ first others middle, items = first :: others ∧ Parses p bytes first middle := by
  rw [commaSeparated] at h
  obtain ⟨first, middle, hfirst, h⟩ := parses_bind.mp h
  obtain ⟨_, _, -, h⟩ := parses_bind.mp h
  obtain ⟨next, _, -, h⟩ := parses_bind.mp h
  rcases parses_ite.mp h with ⟨-, h⟩ | ⟨-, h⟩
  · obtain ⟨_, _, -, h⟩ := parses_bind.mp h
    obtain ⟨others, _, -, h⟩ := parses_bind.mp h
    exact ⟨first, others, middle, (parses_pure.mp h).1, hfirst⟩
  · exact ⟨first, [], middle, (parses_pure.mp h).1, hfirst⟩

/-- The closing brace ends the items. -/
theorem parses_commaSeparated_last {p : ByteParser α} {fuel : Nat} {first : α}
    {items : List α} {tail : Bytes} (hfirst : Parses p bytes first (closeBrace :: tail)) :
    Parses (commaSeparated p (fuel + 1)) bytes items rest ↔
      items = [first] ∧ rest = closeBrace :: tail := by
  have hspace : (closeBrace :: tail).dropWhile isSpace = closeBrace :: tail :=
    List.dropWhile_cons_of_neg (by decide)
  have hcomma : ¬ some closeBrace = some comma := by decide
  rw [commaSeparated, parses_bind]
  constructor
  · rintro ⟨item, middle, hitem, h⟩
    obtain ⟨rfl, rfl⟩ := hitem.deterministic hfirst
    obtain ⟨_, middle, hskip, h⟩ := parses_bind.mp h
    obtain rfl := (parses_space.mp hskip).trans hspace
    obtain ⟨next, middle, hpeek, h⟩ := parses_bind.mp h
    obtain ⟨rfl, rfl⟩ := parses_peek.mp hpeek
    rw [List.head?_cons, if_neg hcomma] at h
    exact parses_pure.mp h
  · rintro ⟨rfl, rfl⟩
    refine ⟨first, _, hfirst, parses_bind.mpr ⟨(), _, parses_space.mpr hspace.symm,
      parses_bind.mpr ⟨_, _, parses_peek.mpr ⟨rfl, rfl⟩, ?_⟩⟩⟩
    rw [List.head?_cons, if_neg hcomma]
    exact parses_pure.mpr ⟨rfl, rfl⟩

/-- A comma leads to the next item. -/
theorem parses_commaSeparated_next {p : ByteParser α} {fuel : Nat} {first : α}
    {items : List α} {tail : Bytes}
    (hfirst : Parses p bytes first (comma :: quote :: tail)) :
    Parses (commaSeparated p (fuel + 1)) bytes items rest ↔
      ∃ others, items = first :: others ∧
        Parses (commaSeparated p fuel) (quote :: tail) others rest := by
  have hspace : (comma :: quote :: tail).dropWhile isSpace = comma :: quote :: tail :=
    List.dropWhile_cons_of_neg (by decide)
  have hspace' : (quote :: tail).dropWhile isSpace = quote :: tail :=
    List.dropWhile_cons_of_neg (by decide)
  have hcomma : isSpace comma = false := by decide
  rw [commaSeparated, parses_bind]
  constructor
  · rintro ⟨item, middle, hitem, h⟩
    obtain ⟨rfl, rfl⟩ := hitem.deterministic hfirst
    obtain ⟨_, middle, hskip, h⟩ := parses_bind.mp h
    obtain rfl := (parses_space.mp hskip).trans hspace
    obtain ⟨next, middle, hpeek, h⟩ := parses_bind.mp h
    obtain ⟨rfl, rfl⟩ := parses_peek.mp hpeek
    rw [List.head?_cons, if_pos rfl] at h
    obtain ⟨_, middle, hstructural, h⟩ := parses_bind.mp h
    obtain rfl := ((parses_structural hcomma).mp hstructural).trans hspace'
    obtain ⟨others, middle, hothers, h⟩ := parses_bind.mp h
    obtain ⟨rfl, rfl⟩ := parses_pure.mp h
    exact ⟨others, rfl, hothers⟩
  · rintro ⟨others, rfl, hothers⟩
    refine ⟨first, _, hfirst, parses_bind.mpr ⟨(), _, parses_space.mpr hspace.symm,
      parses_bind.mpr ⟨_, _, parses_peek.mpr ⟨rfl, rfl⟩, ?_⟩⟩⟩
    rw [List.head?_cons, if_pos rfl]
    exact parses_bind.mpr ⟨(), _, (parses_structural hcomma).mpr hspace'.symm,
      parses_bind.mpr ⟨others, rest, hothers, parses_pure.mpr ⟨rfl, rfl⟩⟩⟩

/-! ### Reading them back -/

/-- Members whose texts need no escapes are read as they are. -/
theorem parses_members_of_unescaped {first : Bytes × Bytes} {more : List (Bytes × Bytes)}
    {fuel count : Nat}
    (hfields : ∀ field ∈ first :: more, AllUnescaped field.1 ∧ AllUnescaped field.2)
    (hcount : more.length < count) :
    Parses (commaSeparated (member (value (fuel + 1))) count)
      (memberText first ++ membersTail more) (membersOf (first :: more)) [closeBrace] := by
  induction more generalizing first count with
  | nil =>
      obtain ⟨hfirst, -⟩ := List.forall_mem_cons.mp hfields
      obtain ⟨count, rfl⟩ := Nat.exists_eq_succ_of_ne_zero (Nat.ne_of_gt hcount)
      have hmember : Parses (member (value (fuel + 1))) (memberText first ++ [closeBrace])
          (first.1, .string first.2) [closeBrace] :=
        (parses_member_iff hfirst.1).mpr
          ⟨first.2, rfl, parses_stringBody_of_unescaped hfirst.2 (by simp)⟩
      exact (parses_commaSeparated_last hmember).mpr ⟨rfl, rfl⟩
  | cons second more ih =>
      obtain ⟨hfirst, hmore⟩ := List.forall_mem_cons.mp hfields
      obtain ⟨count, rfl⟩ := Nat.exists_eq_succ_of_ne_zero (Nat.ne_of_gt
        (Nat.lt_of_le_of_lt (Nat.zero_le _) hcount))
      have hothers := ih hmore (Nat.lt_of_succ_lt_succ hcount)
      have hmember : Parses (member (value (fuel + 1)))
          (memberText first ++ membersTail (second :: more)) (first.1, .string first.2)
          (membersTail (second :: more)) :=
        (parses_member_iff hfirst.1).mpr
          ⟨first.2, rfl, parses_stringBody_of_unescaped hfirst.2 (by simp)⟩
      have htail : membersTail (second :: more) =
          comma :: (memberText second ++ membersTail more) := rfl
      rw [memberText_append second] at hothers htail
      nth_rewrite 2 [htail] at hmember
      exact (parses_commaSeparated_next hmember).mpr ⟨_, rfl, hothers⟩

/-- If the first member is read as its text, that text needs no escapes and the reader
stands at the members after it. -/
theorem unescaped_of_parses_first {first : Bytes × Bytes} {more : List (Bytes × Bytes)}
    {fuel count : Nat} {members : List (Bytes × Value)} (hkey : AllUnescaped first.1)
    (hvalue : ∀ item, (first.1, item) ∈ members → item = .string first.2)
    (h : Parses (commaSeparated (member (value (fuel + 1))) (count + 1))
      (memberText first ++ membersTail more) members rest) :
    AllUnescaped first.2 ∧ Parses (member (value (fuel + 1)))
      (memberText first ++ membersTail more) (first.1, .string first.2)
      (membersTail more) := by
  obtain ⟨item, others, middle, rfl, hitem⟩ := parses_commaSeparated_head h
  obtain ⟨text, rfl, htext⟩ := (parses_member_iff hkey).mp hitem
  have hequal := hvalue (.string text) List.mem_cons_self
  rw [Value.string.injEq] at hequal
  subst hequal
  obtain ⟨next, after, htail, hfollows, -⟩ := membersTail_follows more
  rw [htail] at htext hitem ⊢
  obtain ⟨hunescaped, rfl⟩ := unescaped_of_parses hfollows htext
  exact ⟨hunescaped, hitem⟩

/-- Members that are read as the texts they were made of need no escapes. -/
theorem unescaped_of_parses_members {first : Bytes × Bytes} {more : List (Bytes × Bytes)}
    {fuel count : Nat} {members : List (Bytes × Value)}
    (hkeys : ∀ field ∈ first :: more, AllUnescaped field.1)
    (hvalues : ∀ field ∈ first :: more, ∀ item, (field.1, item) ∈ members →
      item = .string field.2)
    (h : Parses (commaSeparated (member (value (fuel + 1))) count)
      (memberText first ++ membersTail more) members rest) :
    ∀ field ∈ first :: more, AllUnescaped field.2 := by
  induction count generalizing first more members with
  | zero => exact absurd h parses_fail
  | succ count ih =>
      obtain ⟨hkey, hkeys⟩ := List.forall_mem_cons.mp hkeys
      obtain ⟨hvalue, hvalues⟩ := List.forall_mem_cons.mp hvalues
      obtain ⟨hfirst, hmember⟩ := unescaped_of_parses_first hkey hvalue h
      refine List.forall_mem_cons.mpr ⟨hfirst, ?_⟩
      cases more with
      | nil => simp
      | cons second more =>
          have htail : membersTail (second :: more) =
              comma :: (memberText second ++ membersTail more) := rfl
          have hsecond := memberText_append second (membersTail more)
          nth_rewrite 2 [htail] at hmember
          rw [hsecond] at hmember
          obtain ⟨others, rfl, hothers⟩ := (parses_commaSeparated_next hmember).mp h
          rw [← hsecond] at hothers
          refine ih hkeys ?_ hothers
          intro field hfield item hitem
          exact hvalues field hfield item (List.mem_cons_of_mem _ hitem)

/-! ### Whole texts -/

theorem valid_memberText_append (field : Bytes × Bytes) (tail : Bytes) :
    Utf8.valid (memberText field ++ tail) =
      (Utf8.valid field.1 && (Utf8.valid field.2 && Utf8.valid tail)) := by
  have hquote : quote < 0x80 := by decide
  have hcolon : colon < 0x80 := by decide
  rw [memberText_append, Utf8.valid_cons_ascii _ hquote, Utf8.valid_append_ascii _ _ hquote,
    Utf8.valid_cons_ascii _ hcolon, Utf8.valid_cons_ascii _ hquote,
    Utf8.valid_append_ascii _ _ hquote]

theorem valid_membersTail_iff (more : List (Bytes × Bytes)) :
    Utf8.valid (membersTail more) = true ↔
      ∀ field ∈ more, Utf8.valid field.1 = true ∧ Utf8.valid field.2 = true := by
  induction more with
  | nil => simp [membersTail, show Utf8.valid [closeBrace] = true from by decide]
  | cons field more ih =>
      have hcomma : comma < 0x80 := by decide
      rw [membersTail, List.cons_append, Utf8.valid_cons_ascii _ hcomma,
        valid_memberText_append, Bool.and_eq_true, Bool.and_eq_true, ih,
        List.forall_mem_cons, and_assoc]

theorem valid_objectText_iff (first : Bytes × Bytes) (more : List (Bytes × Bytes)) :
    Utf8.valid (objectText first more) = true ↔
      ∀ field ∈ first :: more, Utf8.valid field.1 = true ∧ Utf8.valid field.2 = true := by
  have hbrace : openBrace < 0x80 := by decide
  rw [objectText, Utf8.valid_cons_ascii _ hbrace, valid_memberText_append, Bool.and_eq_true,
    Bool.and_eq_true, valid_membersTail_iff, List.forall_mem_cons, and_assoc]

/-- Reading an object that does not start with its closing brace comes down to reading
its members. -/
theorem parses_bracketed_iff {p : ByteParser α} {fuel : Nat} {items : List α} :
    Parses (bracketed openBrace closeBrace p fuel) (openBrace :: quote :: bytes) items rest ↔
      ∃ middle, Parses (commaSeparated p fuel) (quote :: bytes) items middle ∧
        middle.dropWhile isSpace = closeBrace :: rest := by
  have hbrace : isSpace openBrace = false := by decide
  have hspace : (quote :: bytes).dropWhile isSpace = quote :: bytes :=
    List.dropWhile_cons_of_neg (by decide)
  have hclose : ¬ some quote = some closeBrace := by decide
  rw [bracketed, parses_bind]
  constructor
  · rintro ⟨_, middle, hopen, h⟩
    obtain rfl := ((parses_structural hbrace).mp hopen).trans hspace
    obtain ⟨next, middle, hpeek, h⟩ := parses_bind.mp h
    obtain ⟨rfl, rfl⟩ := parses_peek.mp hpeek
    rw [List.head?_cons, if_neg hclose] at h
    obtain ⟨members, middle, hmembers, h⟩ := parses_bind.mp h
    obtain ⟨_, middle', hskip, h⟩ := parses_bind.mp h
    obtain ⟨_, rest', hexpect, h⟩ := parses_bind.mp h
    obtain ⟨rfl, rfl⟩ := parses_pure.mp h
    refine ⟨middle, hmembers, ?_⟩
    rw [← parses_space.mp hskip, parses_expect.mp hexpect]
  · rintro ⟨middle, hmembers, hskip⟩
    refine ⟨(), _, (parses_structural hbrace).mpr hspace.symm,
      parses_bind.mpr ⟨_, _, parses_peek.mpr ⟨rfl, rfl⟩, ?_⟩⟩
    rw [List.head?_cons, if_neg hclose]
    exact parses_bind.mpr ⟨items, middle, hmembers,
      parses_bind.mpr ⟨(), _, parses_space.mpr rfl,
        parses_bind.mpr ⟨(), rest, parses_expect.mpr hskip, parses_pure.mpr ⟨rfl, rfl⟩⟩⟩⟩

theorem parses_value_object {fuel : Nat} {result : Value} :
    Parses (value (fuel + 1)) (openBrace :: quote :: bytes) result rest ↔
      ∃ members middle, result = .object members ∧
        Parses (commaSeparated (member (value fuel)) fuel) (quote :: bytes) members middle ∧
        middle.dropWhile isSpace = closeBrace :: rest := by
  rw [value, parses_bind]
  constructor
  · rintro ⟨next, middle, hpeek, h⟩
    obtain ⟨rfl, rfl⟩ := parses_peek.mp hpeek
    rw [List.head?_cons, if_pos rfl] at h
    obtain ⟨members, middle, hmembers, h⟩ := parses_bind.mp h
    obtain ⟨rfl, rfl⟩ := parses_pure.mp h
    obtain ⟨middle', hitems, hclose⟩ := parses_bracketed_iff.mp hmembers
    exact ⟨members, middle', rfl, hitems, hclose⟩
  · rintro ⟨members, middle, rfl, hitems, hclose⟩
    refine ⟨some openBrace, _, parses_peek.mpr ⟨rfl, rfl⟩, ?_⟩
    rw [if_pos rfl]
    exact parses_bind.mpr ⟨members, rest, parses_bracketed_iff.mpr ⟨middle, hitems, hclose⟩,
      parses_pure.mpr ⟨rfl, rfl⟩⟩

theorem parses_document_object {fuel : Nat} {result : Value} :
    Parses (document (fuel + 1)) (openBrace :: quote :: bytes) result rest ↔
      ∃ members middle tail, result = .object members ∧
        Parses (commaSeparated (member (value fuel)) fuel) (quote :: bytes) members middle ∧
        middle.dropWhile isSpace = closeBrace :: tail ∧ rest = tail.dropWhile isSpace := by
  have hspace : (openBrace :: quote :: bytes).dropWhile isSpace = openBrace :: quote :: bytes :=
    List.dropWhile_cons_of_neg (by decide)
  simp only [document, parses_bind, parses_space, parses_pure, hspace]
  constructor
  · rintro ⟨_, _, rfl, item, tail, hitem, _, _, rfl, rfl, rfl⟩
    obtain ⟨members, middle, rfl, hmembers, hclose⟩ := parses_value_object.mp hitem
    exact ⟨members, middle, tail, rfl, hmembers, hclose, rfl⟩
  · rintro ⟨members, middle, tail, rfl, hmembers, hclose, rfl⟩
    exact ⟨(), _, rfl, _, tail,
      parses_value_object.mpr ⟨members, middle, rfl, hmembers, hclose⟩, (), _, rfl, rfl, rfl⟩

theorem parse_eq_some_iff {text : Bytes} {result : Value} :
    parse text = some result ↔
      Utf8.valid text = true ∧ Parses (document (text.length + 1)) text result [] := by
  unfold parse Parses
  by_cases hvalid : Utf8.valid text = true
  · rw [if_pos hvalid]
    simp only [hvalid, true_and]
    split
    · rename_i item hrun
      rw [hrun]
      simp
    · rename_i hother
      constructor
      · intro h
        cases h
      · intro h
        exact absurd h (hother result)
  · rw [if_neg hvalid]
    simp [hvalid]

theorem parses_objectText_iff {first : Bytes × Bytes} {more : List (Bytes × Bytes)}
    {fuel : Nat} {result : Value} :
    Parses (document (fuel + 1)) (objectText first more) result rest ↔
      ∃ members middle tail, result = .object members ∧
        Parses (commaSeparated (member (value fuel)) fuel)
          (memberText first ++ membersTail more) members middle ∧
        middle.dropWhile isSpace = closeBrace :: tail ∧ rest = tail.dropWhile isSpace := by
  rw [objectText, memberText_append]
  exact parses_document_object

/-- **Reading back.**  An object put together without escaping is read as its own
members when every key and value may stand as it is. -/
theorem parse_objectText {first : Bytes × Bytes} {more : List (Bytes × Bytes)}
    (hfields : ∀ field ∈ first :: more, Verbatim field.1 ∧ Verbatim field.2) :
    parse (objectText first more) = some (.object (membersOf (first :: more))) := by
  have hcount : more.length < (objectText first more).length := by
    have hmore := length_le_membersTail more
    simp only [objectText, List.length_cons, List.length_append]
    omega
  refine parse_eq_some_iff.mpr ⟨?_, parses_objectText_iff.mpr ?_⟩
  · rw [valid_objectText_iff]
    intro field hfield
    exact ⟨(hfields field hfield).1.1, (hfields field hfield).2.1⟩
  · refine ⟨membersOf (first :: more), [closeBrace], [], rfl, ?_, by decide, rfl⟩
    refine parses_members_of_unescaped ?_ hcount
    intro field hfield
    exact ⟨(hfields field hfield).1.2, (hfields field hfield).2.2⟩

/-- **Only then.**  Where each member is read as the text it was made of, every value may
stand as it is. -/
theorem verbatim_of_parse_objectText {first : Bytes × Bytes} {more : List (Bytes × Bytes)}
    {members : List (Bytes × Value)} (hkeys : ∀ field ∈ first :: more, AllUnescaped field.1)
    (hvalues : ∀ field ∈ first :: more, ∀ item, (field.1, item) ∈ members →
      item = .string field.2)
    (h : parse (objectText first more) = some (.object members)) :
    ∀ field ∈ first :: more, Verbatim field.2 := by
  obtain ⟨hvalid, hdocument⟩ := parse_eq_some_iff.mp h
  rw [valid_objectText_iff] at hvalid
  obtain ⟨items, middle, tail, hitems, hmembers, -, -⟩ := parses_objectText_iff.mp hdocument
  obtain rfl := Value.object.inj hitems
  intro field hfield
  exact ⟨(hvalid field hfield).2, unescaped_of_parses_members hkeys hvalues hmembers field hfield⟩

/-- Members of distinct names are the ones they were made of. -/
theorem eq_string_of_mem_membersOf {fields : List (Bytes × Bytes)} {field : Bytes × Bytes}
    {item : Value} (hnames : (fields.map Prod.fst).Nodup) (hfield : field ∈ fields)
    (hitem : (field.1, item) ∈ membersOf fields) : item = .string field.2 := by
  obtain ⟨other, hother, hequal⟩ := List.mem_map.mp hitem
  rw [Prod.mk.injEq] at hequal
  obtain rfl := List.inj_on_of_nodup_map hnames hother hfield hequal.1
  exact hequal.2.symm

theorem Verbatim.quote_notMem {text : Bytes} (h : Verbatim text) : quote ∉ text := by
  intro hmem
  exact absurd rfl (unescaped_iff.mp (h.2 quote hmem)).1

theorem verbatim_decimal (n : Nat) : Verbatim (decimal n) := by
  have hdigit : ∀ d < 10, 0x30 + UInt8.ofNat d < 0x80 ∧
      unescaped (0x30 + UInt8.ofNat d) = true := by
    decide
  refine ⟨Utf8.valid_of_ascii ?_, ?_⟩
  · intro byte hmem
    obtain ⟨d, hd, rfl⟩ := mem_decimal hmem
    exact (hdigit d hd).1
  · intro byte hmem
    obtain ⟨d, hd, rfl⟩ := mem_decimal hmem
    exact (hdigit d hd).2

/-! ### The text determines the fields -/

/-- A text is cut in one way at the first occurrence of a byte. -/
theorem append_cons_injective {byte : UInt8} {before before' after after' : Bytes}
    (hbefore : byte ∉ before) (hbefore' : byte ∉ before')
    (h : before ++ byte :: after = before' ++ byte :: after') :
    before = before' ∧ after = after' := by
  induction before generalizing before' with
  | nil =>
      cases before' with
      | nil => exact ⟨rfl, (List.cons.inj h).2⟩
      | cons first before' =>
          exact absurd ((List.cons.inj h).1 ▸ List.mem_cons_self) hbefore'
  | cons first before ih =>
      cases before' with
      | nil => exact absurd ((List.cons.inj h).1 ▸ List.mem_cons_self) hbefore
      | cons first' before' =>
          obtain ⟨rfl, htail⟩ := List.cons.inj h
          obtain ⟨rfl, hafter⟩ := ih (List.not_mem_of_not_mem_cons hbefore)
            (List.not_mem_of_not_mem_cons hbefore') htail
          exact ⟨rfl, hafter⟩

/-- Values without quotes make for the fewest quotes. -/
theorem count_membersTail_le {more more' : List (Bytes × Bytes)}
    (hkeys : more.map Prod.fst = more'.map Prod.fst)
    (hmore : ∀ field ∈ more, quote ∉ field.2) :
    (membersTail more).count quote ≤ (membersTail more').count quote := by
  induction more generalizing more' with
  | nil =>
      obtain rfl : more' = [] := List.map_eq_nil_iff.mp hkeys.symm
      exact Nat.le_refl _
  | cons field more ih =>
      cases more' with
      | nil => cases hkeys
      | cons field' more' =>
          obtain ⟨hkey, hkeys⟩ := List.cons.inj hkeys
          obtain ⟨hfield, hmore⟩ := List.forall_mem_cons.mp hmore
          have htail := ih hkeys hmore
          have hcount := List.count_eq_zero.mpr hfield
          simp only [membersTail, List.cons_append, memberText_append, List.count_cons,
            List.count_append, hcount, hkey]
          omega

/-- Two ways to cut a text into a value without quotes, a quote and the members after
it agree, if both have members of the same names. -/
theorem append_membersTail_injective {value value' : Bytes} {more more' : List (Bytes × Bytes)}
    (hkeys : more.map Prod.fst = more'.map Prod.fst) (hvalue : quote ∉ value)
    (hmore : ∀ field ∈ more, quote ∉ field.2)
    (h : value ++ quote :: membersTail more = value' ++ quote :: membersTail more') :
    value = value' ∧ membersTail more = membersTail more' := by
  have hvalue' : quote ∉ value' := by
    intro hmem
    have hcount := congrArg (List.count quote) h
    have hle := count_membersTail_le hkeys hmore
    have hpos := List.count_pos_iff.mpr hmem
    rw [List.count_append, List.count_append, List.count_cons_self, List.count_cons_self,
      List.count_eq_zero.mpr hvalue] at hcount
    omega
  exact append_cons_injective hvalue hvalue' h

/-- Values without quotes can be read off the text of the members. -/
theorem membersTail_injective {more more' : List (Bytes × Bytes)}
    (hkeys : more.map Prod.fst = more'.map Prod.fst)
    (hmore : ∀ field ∈ more, quote ∉ field.2)
    (h : membersTail more = membersTail more') : more = more' := by
  induction more generalizing more' with
  | nil => exact (List.map_eq_nil_iff.mp hkeys.symm).symm
  | cons field more ih =>
      cases more' with
      | nil => cases hkeys
      | cons field' more' =>
          obtain ⟨hkey, hkeys⟩ := List.cons.inj hkeys
          obtain ⟨hfield, hmore⟩ := List.forall_mem_cons.mp hmore
          simp only [membersTail, List.cons_append, memberText_append, hkey,
            List.cons.injEq, true_and, List.append_cancel_left_eq] at h
          obtain ⟨hvalue, htail⟩ := append_membersTail_injective hkeys hfield hmore h
          rw [Prod.ext hkey hvalue, ih hkeys hmore htail]

theorem objectText_injective {first first' : Bytes × Bytes} {more more' : List (Bytes × Bytes)}
    (hkeys : (first :: more).map Prod.fst = (first' :: more').map Prod.fst)
    (hfields : ∀ field ∈ first :: more, quote ∉ field.2)
    (h : objectText first more = objectText first' more') :
    first :: more = first' :: more' := by
  apply membersTail_injective hkeys hfields
  rw [objectText, objectText, List.cons.injEq] at h
  rw [membersTail, membersTail, List.cons_append, List.cons_append, h.2]

end StellarIbc.Json
