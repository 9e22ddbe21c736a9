import RowQuery.Number.Integer

/-!
# Universally unique identifiers

An identifier is sixteen bytes.  Its canonical text is hexadecimal in five groups with
hyphens between them.  It is also read without hyphens, in braces, and behind the name of
its URN space.

Main results:

- {lit}`Uuid.text` writes and {lit}`Uuid.read?` reads; {lit}`Uuid.fault` says what is wrong
  with a text that cannot be read.
- {lit}`hexText` and {lit}`ofHex?` convert bytes and hexadecimal digits.
-/

namespace RowQuery

/-! ## Hexadecimal -/

namespace Hex

/-- The digit of a number below sixteen, in lower case. -/
def digit (n : Nat) : Char :=
  Nat.digitChar n

/-- The number that a hexadecimal digit of either case stands for. -/
def value? (c : Char) : Option Nat :=
  if c.isDigit then some (c.toNat - '0'.toNat)
  else if 'a' ≤ c ∧ c ≤ 'f' then some (c.toNat - 'a'.toNat + 10)
  else if 'A' ≤ c ∧ c ≤ 'F' then some (c.toNat - 'A'.toNat + 10)
  else none

/-- Two digits for each byte. -/
def text (bytes : List UInt8) : List Char :=
  bytes.flatMap fun byte => [digit (byte.toNat / 16), digit (byte.toNat % 16)]

/-- Reads two digits for each byte. -/
def bytes? : List Char → Option (List UInt8)
  | [] => some []
  | [_] => none
  | high :: low :: rest => do
    let h ← value? high
    let l ← value? low
    let bytes ← bytes? rest
    return UInt8.ofNat (16 * h + l) :: bytes

end Hex

/-! ## Identifiers -/

/-- A universally unique identifier. -/
structure Uuid where
  bytes : List UInt8
  length_bytes : bytes.length = 16
  deriving DecidableEq

/-- Why a text or a list of bytes is not an identifier. -/
inductive UuidError where
  | textLength (found : Nat)
  | character (c : Char) (index : Nat)
  | groupCount (found : Nat)
  | groupLength (group expected found : Nat)
  | byteCount (found : Nat)
  deriving DecidableEq, Repr

/-- The wording of an identifier error. -/
def UuidError.message : UuidError → String
  | .textLength found => s!"invalid length: found {found}"
  | .character c index => s!"invalid character: found `{c.toString}` at {index}"
  | .groupCount found => s!"invalid group count: expected 5, found {found}"
  | .groupLength group expected found =>
    s!"invalid group length in group {group}: expected {expected}, found {found}"
  | .byteCount found => s!"invalid length: expected 16 bytes, found {found}"

namespace Uuid

/-- The identifier with these bytes, if there are sixteen. -/
def ofBytes? (bytes : List UInt8) : Option Uuid :=
  if h : bytes.length = 16 then some ⟨bytes, h⟩ else none

/-- The identifier with all bits zero. -/
def nil : Uuid := ⟨List.replicate 16 0, rfl⟩

instance : Inhabited Uuid := ⟨nil⟩

/-- Identifiers are ordered by their bytes. -/
def order (a b : Uuid) : Ordering :=
  compare a.bytes b.bytes

/-- The canonical text: groups of four, two, two, two and six bytes. -/
def text (u : Uuid) : List Char :=
  let digits := Hex.text u.bytes
  digits.take 8 ++ '-' :: (digits.drop 8).take 4 ++ '-' :: (digits.drop 12).take 4 ++
    '-' :: (digits.drop 16).take 4 ++ '-' :: digits.drop 20

/-! ## Reading -/

/-- Reads thirty-two digits. -/
def ofHex? (digits : List Char) : Option Uuid := do
  ofBytes? (← Hex.bytes? digits)

/-- Reads the canonical text in either case. -/
def ofHyphenated? (text : List Char) : Option Uuid :=
  if text.length = 36 ∧ [8, 13, 18, 23].all (text[·]? = some '-') then
    ofHex? (text.filter (· ≠ '-'))
  else
    none

/-- What stands in front of the canonical text in the URN space. -/
def urnStart : List Char := "urn:uuid:".toList

/-- What stands between braces. -/
def unbraced? : List Char → Option (List Char)
  | '{' :: rest => if rest.getLast? = some '}' then some rest.dropLast else none
  | _ => none

/-- What stands behind the name of the URN space in any case. -/
def unnamed? (text : List Char) : Option (List Char) :=
  if (text.take urnStart.length).map Char.toLower = urnStart then some (text.drop urnStart.length)
  else none

/-- Reads an identifier in any of its forms. -/
def read? (text : List Char) : Option Uuid :=
  ofHex? text <|> ofHyphenated? text <|> (unbraced? text >>= ofHyphenated?) <|>
    (unnamed? text >>= ofHyphenated?)

/-! ## Faults -/

/-- The size of a text in UTF-8. -/
def sizeInBytes (text : List Char) : Nat :=
  (String.ofList text).utf8ByteSize

/-- The first character that is neither a digit nor a hyphen, with its index in bytes. -/
def firstForeign? (index : Nat) : List Char → Option (Char × Nat)
  | [] => none
  | c :: rest =>
    if (Hex.value? c).isSome || c = '-' then firstForeign? (index + c.utf8Size) rest
    else some (c, index)

/-- The pieces between the hyphens. -/
def groups : List Char → List (List Char)
  | [] => [[]]
  | c :: rest =>
    if c = '-' then [] :: groups rest
    else
      match groups rest with
      | [] => [[c]]
      | group :: others => (c :: group) :: others

/-- The first of the leading groups that has a wrong length. -/
def firstUneven? (group : Nat) : List Nat → List (List Char) → Option UuidError
  | expected :: rest, digits :: others =>
    if digits.length = expected then firstUneven? (group + 1) rest others
    else some (.groupLength group expected digits.length)
  | _, _ => none

/-- What is wrong with the piece {lit}`body` of the text {lit}`subject`.  Only a text that is
{lit}`simple` may do without hyphens. -/
def bodyFault (subject body : List Char) (offset : Nat) (simple : Bool) : UuidError :=
  match firstForeign? offset body with
  | some (c, index) => .character c index
  | none =>
    let parts := groups body
    if simple && parts.length = 1 then .textLength (sizeInBytes subject)
    else if parts.length ≠ 5 then .groupCount parts.length
    else
      (firstUneven? 0 [8, 4, 4, 4] parts).getD (.groupLength 4 12 (sizeInBytes subject - 24))

/-- What is wrong with a text that stands for itself, outside of the forms whose length
shows that a canonical text was meant. -/
def looseFault (text : List Char) : UuidError :=
  match unbraced? text with
  | some body => bodyFault text body 1 false
  | none =>
    match unnamed? text with
    | some body => bodyFault text body urnStart.length false
    | none => bodyFault text text 0 true

/-- What is wrong with a text that is not an identifier. -/
def fault (text : List Char) : UuidError :=
  let size := sizeInBytes text
  let inner? :=
    if size = 38 then unbraced? text else if size = 45 then unnamed? text else none
  match inner? with
  | some body => bodyFault body body 0 false
  | none =>
    if size = 0 ∨ 45 < size then .textLength size
    else if size = 36 then bodyFault text text 0 false
    else looseFault text

/-- Reads an identifier in any of its forms, or says what is wrong. -/
def read (text : List Char) : Except UuidError Uuid :=
  match read? text with
  | some u => .ok u
  | none => .error (fault text)

/-- The identifier with these bytes. -/
def ofBytes (bytes : List UInt8) : Except UuidError Uuid :=
  match ofBytes? bytes with
  | some u => .ok u
  | none => .error (.byteCount bytes.length)

end Uuid

end RowQuery
