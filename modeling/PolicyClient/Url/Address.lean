/-
Hosts that are addresses. An IPv4 address may be written with one to four numbers in base ten,
eight or sixteen; it is shown as four numbers in base ten. An IPv6 address has eight groups in base
sixteen, the longest run of zero groups left out.
-/
import PolicyClient.Url.Percent

namespace PolicyClient.Url

/-- The parts of a text between separators. -/
def splitAt (separator : Char) : List Char → List (List Char)
  | [] => [[]]
  | c :: rest =>
    if c = separator then [] :: splitAt separator rest
    else
      match splitAt separator rest with
      | [] => [[c]]
      | part :: parts => (c :: part) :: parts

/-! ## IPv4 -/

/-- A number of an IPv4 address: `0x` in front means base sixteen, `0` base eight. -/
def ipv4Number? : List Char → Option Nat
  | [] => none
  | '0' :: 'x' :: digits => Text.natOfDigits? 16 digits
  | '0' :: 'X' :: digits => Text.natOfDigits? 16 digits
  | '0' :: d :: digits => Text.natOfDigits? 8 (d :: digits)
  | digits => Text.natOfDigits? 10 digits

/-- Whether the last part of a host, an empty one aside, is a number. Such a host is an IPv4 address
or nothing. -/
def endsInNumber (host : List Char) : Bool :=
  let last? :=
    match (splitAt '.' host).reverse with
    | [] :: last :: _ => some last
    | [] :: _ => none
    | last :: _ => some last
    | [] => none
  match last? with
  | none => false
  | some last => (last ≠ [] && last.all Char.isDigit) || (ipv4Number? last).isSome

/-- The numbers of an IPv4 address as one: all but the last fill a byte each. -/
def joinIpv4? : List Nat → Option Nat
  | [] => none
  | numbers =>
    let front := numbers.dropLast
    let last := numbers.getLast?.getD 0
    if numbers.length ≤ 4 ∧ front.all (· ≤ 255) ∧ last < 1 <<< (8 * (5 - numbers.length)) then
      some (front.foldl (fun n x => 256 * n + x) 0 <<< (8 * (5 - numbers.length)) + last)
    else none

/-- The IPv4 address of a host; an empty part at the end does not count. -/
def ipv4? (host : List Char) : Option Nat :=
  let parts := splitAt '.' host
  let parts := if parts.getLast? = some [] then parts.dropLast else parts
  (parts.mapM ipv4Number?).bind joinIpv4?

/-- An IPv4 address as four numbers. -/
def ipv4Text (address : Nat) : String :=
  let byte (i : Nat) : String := toString (address >>> (8 * i) % 256)
  byte 3 ++ "." ++ byte 2 ++ "." ++ byte 1 ++ "." ++ byte 0

/-! ## IPv6 -/

/-- A group of one to four digits. -/
def group? (digits : List Char) : Option Nat :=
  if digits ≠ [] ∧ digits.length ≤ 4 then Text.natOfDigits? 16 digits else none

/-- A number from 0 to 255 without needless zeros. -/
def byte? (digits : List Char) : Option Nat :=
  if digits = [] ∨ ¬digits.all Char.isDigit ∨ (digits.head? = some '0' ∧ digits.length ≠ 1) then
    none
  else (Text.natOfDigits? 10 digits).bind fun n => if n ≤ 255 then some n else none

/-- Four numbers with points between them, as two groups. -/
def dottedGroups? (s : List Char) : Option (List Nat) :=
  match (splitAt '.' s).mapM byte? with
  | some [a, b, c, d] => some [256 * a + b, 256 * c + d]
  | _ => none

/-- Groups between colons; `dotted` allows the last to be an IPv4 address. -/
def groups? (dotted : Bool) : List (List Char) → Option (List Nat)
  | [] => some []
  | [last] =>
    if dotted ∧ last.contains '.' then dottedGroups? last else (group? last).map fun g => [g]
  | first :: rest => do
    let g ← group? first
    let gs ← groups? dotted rest
    return g :: gs

/-- The groups of one side of `::`, where nothing means none. -/
def side? (dotted : Bool) (s : List Char) : Option (List Nat) :=
  if s = [] then some [] else groups? dotted (splitAt ':' s)

/-- The text before and behind the first `::`. -/
def splitGap? : List Char → Option (List Char × List Char)
  | ':' :: ':' :: rest => some ([], rest)
  | c :: rest => (splitGap? rest).map fun (before, behind) => (c :: before, behind)
  | [] => none

/-- The eight groups of an IPv6 address; `::` stands for at least one group of zero. -/
def ipv6? (s : List Char) : Option (List Nat) :=
  match splitGap? s with
  | none => (side? true s).bind fun groups => if groups.length = 8 then some groups else none
  | some (before, behind) => do
    let front ← side? false before
    let back ← side? true behind
    if front.length + back.length ≤ 7 then
      some (front ++ List.replicate (8 - front.length - back.length) 0 ++ back)
    else none

/-- How many zeros stand at the start. -/
def zeroRun (groups : List Nat) : Nat :=
  (groups.takeWhile (· == 0)).length

/-- The length of the longest run of zeros. -/
def longestRun : List Nat → Nat
  | [] => 0
  | g :: gs => max (zeroRun (g :: gs)) (longestRun gs)

/-- The groups before and behind the first run of zeros of a length. -/
def splitRun (length : Nat) : List Nat → List Nat × List Nat
  | [] => ([], [])
  | g :: gs =>
    if zeroRun (g :: gs) = length then ([], (g :: gs).drop length)
    else (g :: (splitRun length gs).1, (splitRun length gs).2)

/-- Groups in base sixteen with colons between them. -/
def groupText (groups : List Nat) : String :=
  String.intercalate ":" (groups.map fun g => String.ofList (Nat.toDigits 16 g))

/-- An IPv6 address; one zero group alone is not left out. -/
def ipv6Text (groups : List Nat) : String :=
  let run := longestRun groups
  if run < 2 then groupText groups
  else groupText (splitRun run groups).1 ++ "::" ++ groupText (splitRun run groups).2

end PolicyClient.Url
