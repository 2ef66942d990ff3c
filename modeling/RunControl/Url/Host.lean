/-
RunControl/Url/Host.lean

Hosts of addresses: a name, or a number of version 4 or 6 of the Internet
Protocol.  A name is lowered, and its labels in other letters than those of
ASCII are written in ASCII.  A name whose last label is a number has to be a
number of version 4.
-/
import RunControl.Url.Percent
import RunControl.Url.Punycode

namespace RunControl.Url

open Text

/-- Why a text is no address. -/
inductive Error where
  | emptyHost
  | invalidName
  | invalidPort
  | invalidIpv4
  | invalidIpv6
  | invalidCharacter
  | noScheme
  | noHierarchy
  deriving DecidableEq, Inhabited

namespace Error

/-- The text of an error. -/
def text : Error → String
  | emptyHost => "empty host"
  | invalidName => "invalid international domain name"
  | invalidPort => "invalid port number"
  | invalidIpv4 => "invalid IPv4 address"
  | invalidIpv6 => "invalid IPv6 address"
  | invalidCharacter => "invalid domain character"
  | noScheme => "relative URL without a base"
  | noHierarchy => "relative URL with a cannot-be-a-base base"

end Error

/-- A host. -/
inductive Host where
  | name (name : String)
  | ipv4 (number : Nat)
  | ipv6 (pieces : List Nat)
  deriving DecidableEq, Inhabited

/-- The parts of a list between the elements that satisfy `isSep`. -/
def splitWhere (isSep : Char → Bool) : List Char → List (List Char)
  | [] => [[]]
  | c :: r =>
    if isSep c then [] :: splitWhere isSep r
    else
      match splitWhere isSep r with
      | [] => [[c]]
      | part :: parts => (c :: part) :: parts

/-! ### Numbers of version 4 -/

/-- What a part of a number says: nothing, or a number in base 10, 8 or 16, which
may be too great. -/
def ipv4Part? (cs : List Char) : Option Nat :=
  let inBase (base : Nat) (ds : List Char) : Option Nat :=
    let digit? (n : Nat) (c : Char) : Option Nat :=
      (hexValue? c).bind fun v => if v < base then some (base * n + v) else none
    ds.foldlM digit? 0
  match cs with
  | [] => none
  | '0' :: 'x' :: ds => inBase 16 ds
  | '0' :: 'X' :: ds => inBase 16 ds
  | ['0'] => some 0
  | '0' :: ds => inBase 8 ds
  | ds => inBase 10 ds

/-- The labels of a name without an empty one at the end. -/
def labels (name : List Char) : List (List Char) :=
  let parts := splitWhere (· == '.') name
  if parts.getLast? = some [] then parts.dropLast else parts

/-- Whether the last label is a number. -/
def endsInNumber (name : List Char) : Bool :=
  match (labels name).getLast? with
  | some last => (!last.isEmpty && last.all Char.isDigit) || (ipv4Part? last).isSome
  | none => false

/-- The number of version 4 that a name is. All parts but the last stand for one
byte each, the last one for the bytes that are left. -/
def ipv4? (name : List Char) : Option Nat := do
  let parts ← (labels name).mapM ipv4Part?
  let last ← parts.getLast?
  let first := parts.dropLast
  if first.length < 4 ∧ first.all (· < 256) ∧ last < Nat.pow 256 (4 - first.length) then
    let high := first.foldl (fun n b => 256 * n + b) 0
    some (high * Nat.pow 256 (4 - first.length) + last)
  else none

/-- The text of a number of version 4. -/
def ipv4Text (n : Nat) : String :=
  joinWith "." ([n / Nat.pow 256 3, n / Nat.pow 256 2 % 256, n / 256 % 256, n % 256].map decimal)

/-! ### Numbers of version 6 -/

/-- A piece of up to four hexadecimal digits. -/
def ipv6Piece? (cs : List Char) : Option Nat :=
  if cs.isEmpty || 4 < cs.length then none
  else cs.foldlM (fun n c => (hexValue? c).map fun v => 16 * n + v) 0

/-- A byte in base ten without zeros in front. -/
def ipv4Byte? (cs : List Char) : Option Nat :=
  if cs.isEmpty || 3 < cs.length || !cs.all Char.isDigit then none
  else if cs.head? = some '0' ∧ 1 < cs.length then none
  else if ofDigits cs < 256 then some (ofDigits cs)
  else none

/-- The two pieces that a number of version 4 at the end stands for. -/
def ipv4Pieces? (cs : List Char) : Option (List Nat) :=
  match (splitWhere (· == '.') cs).map ipv4Byte? with
  | [some a, some b, some c, some d] => some [256 * a + b, 256 * c + d]
  | _ => none

/-- The pieces between colons; the last may be a number of version 4. -/
def ipv6Pieces? (last : Bool) : List (List Char) → Option (List Nat)
  | [] => some []
  | [p] =>
    if last && p.contains '.' then ipv4Pieces? p else (ipv6Piece? p).map fun n => [n]
  | p :: ps => do pure ((← ipv6Piece? p) :: (← ipv6Pieces? last ps))

/-- The pieces on one side of two colons; there may be none. -/
def ipv6Side? (last : Bool) (cs : List Char) : Option (List Nat) :=
  if cs.isEmpty then some [] else ipv6Pieces? last (splitWhere (· == ':') cs)

/-- The characters before and after the first two colons next to each other. -/
def atDoubleColon : List Char → Option (List Char × List Char)
  | ':' :: ':' :: r => some ([], r)
  | c :: r => (atDoubleColon r).map fun (a, b) => (c :: a, b)
  | [] => none

/-- The number of version 6 that a text is. Two colons stand for as many zeros as
are missing, at least one. -/
def ipv6? (cs : List Char) : Option (List Nat) :=
  match atDoubleColon cs with
  | some (left, right) => do
    let left ← ipv6Side? false left
    let right ← ipv6Side? true right
    let missing := 8 - (left.length + right.length)
    if 0 < missing then pure (left ++ List.replicate missing 0 ++ right) else none
  | none => do
    let pieces ← ipv6Pieces? true (splitWhere (· == ':') cs)
    if pieces.length = 8 then pure pieces else none

/-- A number in base sixteen. -/
def hexText (n : Nat) : String :=
  String.ofList (Nat.toDigits 16 n)

/-- The start and the length of the first longest run of zeros. -/
def longestZeros (pieces : List Nat) : Nat × Nat :=
  (List.range pieces.length).foldl (fun best start =>
    let length := ((pieces.drop start).takeWhile (· == 0)).length
    if best.2 < length then (start, length) else best) (0, 0)

/-- The text of a number of version 6; the first longest run of at least two
zeros is left out. -/
def ipv6Text (pieces : List Nat) : String :=
  let (start, length) := longestZeros pieces
  if length < 2 then joinWith ":" (pieces.map hexText)
  else
    joinWith ":" ((pieces.take start).map hexText) ++ "::" ++
      joinWith ":" ((pieces.drop (start + length)).map hexText)

/-! ### Names -/

/-- The small letters of a range of capitals whose small letters follow at a fixed
distance, or alternate with them. -/
def lowerCode (n : Nat) : Nat :=
  let isIn (low high : Nat) : Bool := low ≤ n && n ≤ high
  let pairedEven (low high : Nat) : Bool := isIn low high && n % 2 == 0
  let pairedOdd (low high : Nat) : Bool := isIn low high && n % 2 == 1
  if isIn 0x41 0x5A || (isIn 0xC0 0xDE && n != 0xD7) then n + 0x20
  else if pairedEven 0x100 0x137 && n != 0x130 then n + 1
  else if pairedOdd 0x139 0x148 || pairedEven 0x14A 0x177 || pairedOdd 0x179 0x17E then n + 1
  else if n == 0x178 then 0xFF
  else if pairedEven 0x200 0x21F || pairedEven 0x222 0x233 || pairedEven 0x1E00 0x1E95 ||
    pairedEven 0x1EA0 0x1EFF then n + 1
  else if isIn 0x391 0x3AB && n != 0x3A2 then n + 0x20
  else if n == 0x386 then 0x3AC
  else if isIn 0x388 0x38A then n + 37
  else if n == 0x38C then 0x3CC
  else if isIn 0x38E 0x38F then n + 63
  else if isIn 0x400 0x40F then n + 0x50
  else if isIn 0x410 0x42F then n + 0x20
  else if pairedEven 0x460 0x481 || pairedEven 0x48A 0x4BF || pairedEven 0x4D0 0x52F then n + 1
  else if isIn 0x531 0x556 then n + 0x30
  else if isIn 0xFF21 0xFF3A then n - 0xFEC0
  else if isIn 0xFF01 0xFF5E then n - 0xFEE0
  else if n == 0x3002 || n == 0xFF61 then 0x2E
  else n

/-- The characters that leave no trace in a name. -/
def isIgnored (c : Char) : Bool :=
  [0xAD, 0x200B, 0x2060, 0x2064, 0xFEFF].contains c.toNat || (0xFE00 ≤ c.toNat && c.toNat ≤ 0xFE0F)

/-- The characters that no name can have. -/
def isForbidden (c : Char) : Bool :=
  c.toNat ≤ 0x20 || "#%/:<>?@[\\]^|".toList.contains c || c.toNat == 0x7F ||
    (0x80 ≤ c.toNat && c.toNat < 0xA0) || c.toNat == 0xFFFD ||
    (0xE000 ≤ c.toNat && c.toNat < 0xF900)

/-- Whether a character can stand in a name as it is. -/
def isPlain (c : Char) : Bool :=
  !isIgnored c && !isForbidden c && lowerCode c.toNat == c.toNat

/-- What a label starts with that stands for one in other letters. -/
def foreignMark : List Char :=
  "xn--".toList

/-- Whether a label may stand in a name. One with the mark has to stand for a
label in other letters. -/
def isSound (label : List Char) : Bool :=
  if foreignMark.isPrefixOf label then
    match Punycode.decode? (label.drop 4) with
    | some cs => cs.all isPlain && cs.any fun c => 128 ≤ c.toNat
    | none => false
  else true

/-- A label in ASCII. -/
def asciiLabel (label : List Char) : List Char :=
  if label.all (·.toNat < 128) then label else foreignMark ++ Punycode.encode label

/-- A name in ASCII. -/
def asciiName? (cs : List Char) : Option (List Char) :=
  let mapped := (cs.filter fun c => !isIgnored c).map fun c => Char.ofNat (lowerCode c.toNat)
  let labels := splitWhere (· == '.') mapped
  if mapped.any isForbidden || !labels.all isSound then none
  else some ((labels.map asciiLabel).intersperse ['.'] |>.flatten)

namespace Host

/-- A number of version 6 between brackets. -/
def bracketed? (cs : List Char) : Except Error Host :=
  if cs.getLast? = some ']' then
    match ipv6? cs.dropLast with
    | some pieces => .ok (.ipv6 pieces)
    | none => .error .invalidIpv6
  else .error .invalidIpv6

/-- The host that a text is where names are names of the Internet. -/
def domain? : List Char → Except Error Host
  | '[' :: r => bracketed? r
  | cs =>
    match asciiName? (Utf8.decodeLossy (percentDecode cs)).toList with
    | none => .error .invalidName
    | some [] => .error .emptyHost
    | some host =>
      if endsInNumber host then
        match ipv4? host with
        | some n => .ok (.ipv4 n)
        | none => .error .invalidIpv4
      else .ok (.name (String.ofList host))

/-- The host that a text is where names mean nothing. -/
def opaque? : List Char → Except Error Host
  | '[' :: r => bracketed? r
  | cs =>
    if cs.any fun c => "\x00\t\n\r #/:<>?@[\\]^|".toList.contains c then .error .invalidCharacter
    else .ok (.name (String.ofList (percentEncode isControl cs)))

/-- The text of a host. -/
def text : Host → String
  | name n => n
  | ipv4 n => ipv4Text n
  | ipv6 pieces => "[" ++ ipv6Text pieces ++ "]"

end Host

end RunControl.Url
