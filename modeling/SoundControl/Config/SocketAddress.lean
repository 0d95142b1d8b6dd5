/-!
# Socket addresses

An internet address with a port: four decimal octets, or eight hexadecimal groups in brackets, of
which one run of zeros may be left out, the last two may be written as four octets, and a scope
number may follow.

* **`SocketAddress`** — the two families.
* **`SocketAddress.parse?`** — the address written in a text.
* **`SocketAddress.text`** — the address in its canonical spelling.
* **`resolutionFault?`** — why a text cannot even be looked up.
-/

namespace SoundControl.Config

/-- **An internet address with a port.** -/
inductive SocketAddress where
  /-- Four octets. -/
  | v4 (octets : List Nat) (port : Nat)
  /-- Eight groups, and the number of the network they are meant in. -/
  | v6 (groups : List Nat) (scope port : Nat)
  deriving DecidableEq, Repr

/-! ## Reading -/

/-- The value of a digit, in hexadecimal at most. -/
def digit? (radix : Nat) (c : Char) : Option Nat :=
  let n :=
    if '0' ≤ c && c ≤ '9' then c.toNat - '0'.toNat
    else if 'a' ≤ c && c ≤ 'f' then c.toNat - 'a'.toNat + 10
    else if 'A' ≤ c && c ≤ 'F' then c.toNat - 'A'.toNat + 10
    else radix
  if n < radix then some n else none

/-- Read digits; their count, their value, and the rest. -/
def readDigits (radix count total : Nat) : List Char → Nat × Nat × List Char
  | [] => (count, total, [])
  | c :: cs =>
    match digit? radix c with
    | some d => readDigits radix (count + 1) (total * radix + d) cs
    | none => (count, total, c :: cs)

/-- Read a number below a bound. -/
def readNumber (radix bound : Nat) (cs : List Char) : Option (Nat × List Char) :=
  let (count, total, rest) := readDigits radix 0 0 cs
  if count = 0 || bound ≤ total then none else some (total, rest)

/-- Read the given character. -/
def expect (c : Char) : List Char → Option (List Char)
  | [] => none
  | d :: cs => if c = d then some cs else none

/-- Read a decimal octet: at most three digits, and no zero in front of others. -/
def readOctet (cs : List Char) : Option (Nat × List Char) :=
  let (count, total, rest) := readDigits 10 0 0 cs
  if count = 0 || 3 < count || 255 < total || (cs.head? = some '0' && 1 < count) then none
  else some (total, rest)

/-- Read four octets with points between them. -/
def readV4 (cs : List Char) : Option (List Nat × List Char) := do
  let (a, cs) ← readOctet cs
  let (b, cs) ← readOctet (← expect '.' cs)
  let (c, cs) ← readOctet (← expect '.' cs)
  let (d, cs) ← readOctet (← expect '.' cs)
  return ([a, b, c, d], cs)

/-- Read a hexadecimal group of at most four digits. -/
def readGroup (cs : List Char) : Option (Nat × List Char) :=
  let (count, total, rest) := readDigits 16 0 0 cs
  if count = 0 || 4 < count then none else some (total, rest)

/-- Read four octets as the two groups they fill. -/
def readV4Groups (cs : List Char) : Option (List Nat × List Char) :=
  match readV4 cs with
  | some ([a, b, c, d], rest) => some ([a * 256 + b, c * 256 + d], rest)
  | _ => none

/-- Read up to `room` groups with colons between them, `first` telling whether the next is the
first; the last two may be four octets, which the third component tells. -/
def readGroups (first : Bool) : Nat → List Char → List Nat × List Char × Bool
  | 0, cs => ([], cs, false)
  | room + 1, cs =>
    match if first then some cs else expect ':' cs with
    | none => ([], cs, false)
    | some inner =>
      match if room = 0 then none else readV4Groups inner with
      | some (pair, rest) => (pair, rest, true)
      | none =>
        match readGroup inner with
        | none => ([], cs, false)
        | some (group, rest) =>
          let (groups, rest, octets) := readGroups false room rest
          (group :: groups, rest, octets)

/-- Read eight groups, or fewer around a double colon that stands for at least one zero. -/
def readV6 (cs : List Char) : Option (List Nat × List Char) :=
  let (head, rest, octets) := readGroups true 8 cs
  if head.length = 8 then some (head, rest)
  else if octets then none
  else do
    let rest ← expect ':' (← expect ':' rest)
    let (tail, rest, _) := readGroups true (7 - head.length) rest
    return (head ++ List.replicate (8 - head.length - tail.length) 0 ++ tail, rest)

/-- Read a colon and a port. -/
def readPort (cs : List Char) : Option (Nat × List Char) := do
  readNumber 10 65536 (← expect ':' cs)

/-- Read an optional scope number; 0 if there is none. -/
def readScope (cs : List Char) : Nat × List Char :=
  match (expect '%' cs).bind (readNumber 10 UInt32.size) with
  | some (scope, rest) => (scope, rest)
  | none => (0, cs)

namespace SocketAddress

/-- Read four octets and a port. -/
def readFour (cs : List Char) : Option (SocketAddress × List Char) := do
  let (octets, cs) ← readV4 cs
  let (port, cs) ← readPort cs
  return (.v4 octets port, cs)

/-- Read groups in brackets and a port. -/
def readSix (cs : List Char) : Option (SocketAddress × List Char) := do
  let (groups, cs) ← readV6 (← expect '[' cs)
  let (scope, cs) := readScope cs
  let (port, cs) ← readPort (← expect ']' cs)
  return (.v6 groups scope port, cs)

/-- **The address that a whole text spells.** -/
def parse? (s : String) : Option SocketAddress :=
  match (readFour s.toList).or (readSix s.toList) with
  | some (address, []) => some address
  | _ => none

/-- The port. -/
def port : SocketAddress → Nat
  | .v4 _ port => port
  | .v6 _ _ port => port

/-- Four octets rather than eight groups. -/
def isV4 : SocketAddress → Bool
  | .v4 _ _ => true
  | .v6 _ _ _ => false

end SocketAddress

/-! ## Writing -/

/-- How many zeros a list of groups starts with. -/
def leadingZeros (groups : List Nat) : Nat := (groups.takeWhile (· == 0)).length

/-- The first of the longest runs of zeros: where it starts and its length. -/
def longestZeros (start : Nat) : List Nat → Nat × Nat
  | [] => (start, 0)
  | g :: gs =>
    let here := leadingZeros (g :: gs)
    let later := longestZeros (start + 1) gs
    if later.2 ≤ here then (start, here) else later

/-- Groups in hexadecimal with colons between them. -/
def groupsText (groups : List Nat) : String :=
  String.intercalate ":" (groups.map fun g => String.ofList (Nat.toDigits 16 g))

/-- Octets with points between them. -/
def octetsText (octets : List Nat) : String := String.intercalate "." (octets.map toString)

/-- The canonical spelling of eight groups: addresses that stand for four octets show them, and the
first longest run of two or more zeros is left out. -/
def v6Text (groups : List Nat) : String :=
  match groups with
  | [0, 0, 0, 0, 0, 0xffff, high, low] =>
    "::ffff:" ++ octetsText [high / 256, high % 256, low / 256, low % 256]
  | _ =>
    let (start, length) := longestZeros 0 groups
    if 1 < length then
      groupsText (groups.take start) ++ "::" ++ groupsText (groups.drop (start + length))
    else groupsText groups

/-- **The canonical spelling of an address.** -/
def SocketAddress.text : SocketAddress → String
  | .v4 octets port => octetsText octets ++ ":" ++ toString port
  | .v6 groups scope port =>
    let scopeText := if scope = 0 then "" else "%" ++ toString scope
    "[" ++ v6Text groups ++ scopeText ++ "]:" ++ toString port

/-! ## Names -/

/-- The text behind the last colon. -/
def afterLastColon? (cs : List Char) : Option (List Char) :=
  if cs.contains ':' then some ((cs.reverse.takeWhile (· != ':')).reverse) else none

/-- Whether a text is a port, an optional plus sign in front. -/
def isPort (cs : List Char) : Bool :=
  let digits := match cs with
    | '+' :: rest => rest
    | _ => cs
  match readNumber 10 65536 digits with
  | some (_, []) => true
  | _ => false

/-- **Why a text cannot even be looked up as a host and a port;** none if it can. -/
def resolutionFault? (s : String) : Option String :=
  if (SocketAddress.parse? s).isSome then none
  else match afterLastColon? s.toList with
    | none => some "invalid socket address"
    | some port => if isPort port then none else some "invalid port value"

end SoundControl.Config
