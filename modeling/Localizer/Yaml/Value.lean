import Localizer.Number.Decimal
import Localizer.Number.Reading
import Localizer.Yaml.Node

/-!
# YAML values

The value of a document is built from its nodes. Every scalar must fit its tag. A collection is
known by the number of its node, so that it can be in several places and inside itself, and it is
filled after the collections that were reached before it. Merged mappings come before a mapping's
own entries, and a key must be a scalar. Equal keys are one key, numbers being compared by what
they are worth; the first keeps its place and the last its value.
-/

namespace Localizer.Yaml

open Text Number

/-- A value. -/
inductive Value where
  | null
  | bool (b : Bool)
  | int (n : Int)
  | float (x : Double)
  /-- No number; written as a word, or computed from a node. -/
  | nan (origin : Option NodeId)
  | text (m : Message)
  | binary (bytes : List Nat)
  | date (year month day : Nat)
  /-- A moment in microseconds, with a time zone or without. -/
  | moment (micros : Int) (zoned : Bool)
  /-- A collection of the document. -/
  | collection (id : NodeId)
  deriving Repr, DecidableEq

/-- What a collection holds. -/
inductive Collection where
  | list (items : List Value)
  | map (entries : List (Value × Value))
  | set (keys : List Value)
  | pairs (entries : List (Value × Value))
  deriving Repr, DecidableEq

/-- The value of a document. -/
structure Document where
  root : Value
  /-- The collections by the numbers of their nodes. -/
  collections : Array (Option Collection) := #[]

/-! ## Scalars -/

/-- A text without underscores. -/
def dropUnderscores (s : Text) : Text := s.filter (· != '_')

/-- The decimal number that a text names, with blanks around it and a sign. -/
def readInt (s : Text) : Except Error Int :=
  let (negative, ds) := sign (plainDigits (stripNumber s))
  if ds.isEmpty || !ds.all Char.isDigit || maxDigits < ds.length then .error .badScalar
  else .ok (if negative then -(numberOf 10 ds : Int) else numberOf 10 ds)

/-- The number that a text names in a base, with blanks around it, a sign, and a zero and the mark
of the base before its digits. -/
def readBased (base : Nat) (mark : Char) (digit : Char → Bool) (s : Text) : Except Error Int :=
  let (negative, ds) := sign (plainDigits (stripNumber s))
  let ds := match ds with
    | '0' :: c :: r => if c.toLower == mark then r else ds
    | _ => ds
  if ds.isEmpty || !ds.all digit then .error .badScalar
  else .ok (if negative then -(numberOf base ds : Int) else numberOf base ds)

/-- The value of the parts of a number in base sixty. -/
def sixties (parts : List Int) : Int := parts.foldl (fun n p => 60 * n + p) 0

/-- A sign at the front of a number, which must not be empty. -/
def splitSign (s : Text) : Except Error (Bool × Text) :=
  match s with
  | [] => .error .emptyNumber
  | '-' :: r => .ok (true, r)
  | '+' :: r => .ok (false, r)
  | r => .ok (false, r)

/-- A whole number without the sign before it. -/
def unsignedInt : Text → Except Error Int
  | [] => .error .emptyNumber
  | ['0'] => .ok 0
  | '0' :: 'b' :: r => readBased 2 'b' (fun c => c == '0' || c == '1') r
  | '0' :: 'x' :: r => readBased 16 'x' isHexDigit r
  | '0' :: r => readBased 8 'o' (fun c => '0' ≤ c && c ≤ '7') ('0' :: r)
  | s => if s.contains ':' then ((s.splitOn ':').mapM readInt).map sixties else readInt s

/-- A whole number. -/
def intOf (s : Text) : Except Error Int := do
  let (negative, s) ← splitSign (dropUnderscores s)
  let n ← unsignedInt s
  return if negative then -n else n

/-- A number with a point. -/
def readFloat (s : Text) : Except Error Double :=
  match Double.ofText? s with
  | some x => .ok x
  | none => .error .badScalar

/-- The value of the parts of a number in base sixty, the last part first. A power of sixty is
rounded before it is multiplied, and must not be too large for that. -/
def sixtiesFloat : (power : Nat) → (sum : Double) → List Double → Except Error Double
  | _, sum, [] => .ok sum
  | power, sum, x :: xs =>
    match Double.ofInt? power with
    | none => .error .tooLarge
    | some p => sixtiesFloat (60 * power) (sum.add (x.mul p)) xs

/-- A number with a point without the sign before it. -/
def unsignedFloat (s : Text) : Except Error Double :=
  if s = ".inf".toList then .ok (.infinite false)
  else if s.contains ':' then do
    let parts ← (s.splitOn ':').mapM readFloat
    sixtiesFloat 1 (.finite false 0 Double.minExponent) parts.reverse
  else readFloat s

/-- A number with a point, or the word for no number; `id` is the node that it stands in. -/
def floatOf (id : NodeId) (s : Text) : Except Error Value := do
  let (negative, s) ← splitSign ((dropUnderscores s).map Char.toLower)
  if s = ".nan".toList then return .nan none
  match ← unsignedFloat s with
  | .nan => return .nan (some id)
  | x => return .float (if negative then x.neg else x)

/-- A truth value. -/
def boolOf (s : Text) : Except Error Bool :=
  let word := s.map Char.toLower
  if word = "yes".toList ∨ word = "true".toList ∨ word = "on".toList then .ok true
  else if word = "no".toList ∨ word = "false".toList ∨ word = "off".toList then .ok false
  else .error .notTruth

/-- The sextet of a character of binary data. -/
def sextet? (c : Char) : Option Nat :=
  if 'A' ≤ c && c ≤ 'Z' then some (c.toNat - 'A'.toNat)
  else if 'a' ≤ c && c ≤ 'z' then some (c.toNat - 'a'.toNat + 26)
  else if c.isDigit then some (c.toNat - '0'.toNat + 52)
  else if c == '+' then some 62
  else if c == '/' then some 63
  else none

/-- The bytes of binary data: `held` has the bits that do not make a byte yet, `place` says how many
sextets of a group of four were read, and `pads` how many equals signs. Other characters count for
nothing. -/
def binaryOf (held place pads : Nat) : Text → Except Error (List Nat)
  | [] => if place = 0 then .ok [] else .error .malformed
  | '=' :: r =>
    if 2 ≤ place ∧ 4 ≤ place + (pads + 1) then .ok []
    else binaryOf held place (if 2 ≤ place then pads + 1 else pads) r
  | c :: r =>
    match sextet? c, place with
    | none, _ => binaryOf held place pads r
    | some n, 0 => binaryOf n 1 0 r
    | some n, 1 => do return (held * 4 + n / 16) :: (← binaryOf (n % 16) 2 0 r)
    | some n, 2 => do return (held * 16 + n / 4) :: (← binaryOf (n % 4) 3 0 r)
    | some n, _ => do return (held * 64 + n) :: (← binaryOf 0 0 0 r)

/-- Whether a year has a day more. -/
def isLeap (y : Nat) : Bool := y % 4 == 0 && (y % 100 != 0 || y % 400 == 0)

/-- How many days a month has. -/
def daysIn (y m : Nat) : Nat :=
  if m = 2 then (if isLeap y then 29 else 28)
  else if m = 4 ∨ m = 6 ∨ m = 9 ∨ m = 11 then 30 else 31

/-- How many days come before a date. -/
def dayNumber (y m d : Nat) : Nat :=
  let before := y - 1
  365 * before + before / 4 - before / 100 + before / 400 +
    (List.range (m - 1)).foldl (fun days k => days + daysIn y (k + 1)) 0 + d

/-- A date, with a time or without. -/
def dateOf (s : Text) : Except Error Value := do
  let s := if s.getLast? = some '\n' then s.dropLast else s
  match stamp? s with
  | none => .error .notDate
  | some stamp =>
    let y := numberOf 10 stamp.year
    let m := numberOf 10 stamp.month
    let d := numberOf 10 stamp.day
    if y = 0 ∨ m = 0 ∨ 12 < m ∨ d = 0 ∨ daysIn y m < d then .error .badScalar
    else match stamp.time with
      | none => return .date y m d
      | some (hour, minute, second, fraction) =>
        let h := numberOf 10 hour
        let min := numberOf 10 minute
        let sec := numberOf 10 second
        let digits := fraction.take 6
        let micro := numberOf 10 (digits ++ List.replicate (6 - digits.length) '0')
        let (west, zoneHours, zoneMinutes) := stamp.zone.getD (false, [], [])
        let shift := 60 * numberOf 10 zoneHours + numberOf 10 zoneMinutes
        if 24 ≤ h ∨ 60 ≤ min ∨ 60 ≤ sec ∨ 1440 ≤ shift then .error .badScalar
        else
          let local_ : Int := ((dayNumber y m d * 86400 + h * 3600 + min * 60 + sec : Nat) : Int)
          let shifted := if west then local_ + 60 * shift else local_ - 60 * shift
          return .moment (shifted * 1000000 + micro) stamp.hasZone

/-- The value of a scalar of a kind, which stands in a node. -/
def scalarOf (id : NodeId) (tag : Tag) (m : Message) : Except Error Value :=
  match tag with
  | .null => .ok .null
  | .bool => (boolOf m.view).map .bool
  | .int => (intOf m.view).map .int
  | .float => floatOf id m.view
  | .binary =>
    if m.all (·.val < 0x80) then (binaryOf 0 0 0 m.view).map .binary else .error .malformed
  | .timestamp => dateOf m.view
  | .str => .ok (.text m)
  | _ => .error .malformed

/-! ## Keys -/

/-- A value as a number, if it can be compared with numbers. -/
def Value.asNumber? : Value → Option (Int × Nat)
  | .bool b => some (if b then 1 else 0, 1)
  | .int n => some (n, 1)
  | .float (.finite s m e) =>
    let (p, q) := Double.toRatio m e
    some (Double.signed s p, q)
  | _ => none

/-- Whether two keys are one. -/
def Value.sameKey (a b : Value) : Bool :=
  match a.asNumber?, b.asNumber? with
  | some (p, q), some (r, t) => p * t == r * q
  | none, none => a == b
  | _, _ => false

/-- Write a value under a key: in its place if the key is there, at the end otherwise. -/
def setEntry (key value : Value) : List (Value × Value) → List (Value × Value)
  | [] => [(key, value)]
  | (k, v) :: es => if k.sameKey key then (k, value) :: es else (k, v) :: setEntry key value es

/-! ## Building -/

/-- How far a document has been built. -/
structure Building where
  /-- The nodes, without the merges that have been carried out. -/
  nodes : Array Node
  /-- The values of the nodes that were reached. -/
  values : Array (Option Value)
  collections : Array (Option Collection)
  /-- The collections that have been reached and not been filled, the last first. -/
  waiting : List NodeId := []

/-- Building a document. -/
abbrev Builder := StateT Building (Except Error)

/-- Whether a tag is one of collections. -/
def Tag.isCollection : Tag → Bool
  | .seq => true
  | .map => true
  | .set => true
  | .omap => true
  | .pairs => true
  | _ => false

/-- Whether no value has this tag. -/
def Tag.isMark : Tag → Bool
  | .merge => true
  | .value => true
  | .other => true
  | _ => false

namespace Builder

/-- An error of form. -/
def fail {α : Type} : Builder α := throw .malformed

/-- A node. -/
def node (id : NodeId) : Builder Node := do
  match (← get).nodes[id]? with
  | some n => return n
  | none => fail

/-- The tag of a node. -/
def tagOf (id : NodeId) : Builder Tag := do return (← node id).tag

/-- The entries of a node that should be a mapping. -/
def entriesOf (id : NodeId) : Builder (List (NodeId × NodeId)) := do
  match (← node id).content with
  | .mapping entries => return entries
  | _ => fail

/-- The items of a node that should be a sequence. -/
def itemsOf (id : NodeId) : Builder (List NodeId) := do
  match (← node id).content with
  | .sequence items => return items
  | _ => fail

/-- Change a node. -/
def modifyNode (id : NodeId) (f : Node → Node) : Builder Unit :=
  modify fun s => { s with nodes := s.nodes.modify id f }

/-! ### Merging -/

/-- A key that is the value mark becomes a text. -/
def plainKey (id : NodeId) : Builder Unit :=
  modifyNode id fun n => if n.tag == .value then { n with tag := .str } else n

/-- The entries before the first one that merges, that one, and those after it; the keys before it
become texts if they are value marks. -/
def toMerge : List (NodeId × NodeId) →
    Builder (List (NodeId × NodeId) × Option (NodeId × List (NodeId × NodeId)))
  | [] => return ([], none)
  | (k, v) :: rest => do
    if (← tagOf k) == .merge then return ([], some (v, rest))
    plainKey k
    let (before, found) ← toMerge rest
    return ((k, v) :: before, found)

mutual

/-- Put the entries that are merged into a mapping before its own. Each merge is taken out of the
mapping before it is carried out, so that a mapping can be merged into itself. -/
def flatten : Nat → NodeId → Builder Unit
  | 0, _ => fail
  | fuel + 1, id => do
    let merged ← mergedFrom fuel id 0
    modifyNode id fun n => match n.content with
      | .mapping entries => { n with content := .mapping (merged ++ entries) }
      | _ => n

/-- Carry out the merges of a mapping from its entry number `index` on. -/
def mergedFrom : Nat → NodeId → (index : Nat) → Builder (List (NodeId × NodeId))
  | 0, _, _ => fail
  | fuel + 1, id, index => do
    let entries ← entriesOf id
    match ← toMerge (entries.drop index) with
    | (_, none) => return []
    | (before, some (v, rest)) =>
      let front := entries.take index ++ before
      modifyNode id fun n => { n with content := .mapping (front ++ rest) }
      let merged ← mergedBy fuel v
      return merged ++ (← mergedFrom fuel id front.length)

/-- The entries that a mapping, or a list of mappings, the last one first, brings in. -/
def mergedBy : Nat → NodeId → Builder (List (NodeId × NodeId))
  | 0, _ => fail
  | fuel + 1, id => do
    match (← node id).content with
    | .mapping _ =>
      flatten fuel id
      entriesOf id
    | .sequence items =>
      let parts ← items.mapM fun item => do
        discard (entriesOf item)
        flatten fuel item
        entriesOf item
      return parts.reverse.flatten
    | .scalar _ => fail

end

/-! ### Values -/

/-- The text of a node that should be a scalar; a mapping has the text of its value mark. -/
def textOf : Nat → NodeId → Builder Message
  | 0, _ => throw .tooDeep
  | fuel + 1, id => do
    match (← node id).content with
    | .scalar m => return m
    | .sequence _ => fail
    | .mapping entries =>
      match ← entries.findM? fun e => do return (← tagOf e.1) == .value with
      | some (_, v) => textOf fuel v
      | none => fail

/-- The value of a node: that of a scalar, or a collection that is to be filled. -/
def build (n : Node) (id : NodeId) : Builder Value := do
  if n.tag.isCollection then
    modify fun s => { s with waiting := id :: s.waiting }
    return .collection id
  if n.tag.isMark then fail
  let m ← textOf ((← get).nodes.size + 1) id
  match n.tag, n.content with
  | .timestamp, .mapping _ => throw .notText
  | tag, _ => scalarOf id tag m

/-- The value of a node, which is built once. -/
def value (id : NodeId) : Builder Value := do
  match (← get).values[id]? with
  | some (some v) => return v
  | _ =>
    let v ← build (← node id) id
    modify fun s => { s with values := s.values.setIfInBounds id (some v) }
    return v

/-- The value of a key, which must not be a collection. -/
def key (id : NodeId) : Builder Value := do
  match ← value id with
  | .collection _ => fail
  | v => return v

/-- The entries of a mapping, after its merges. -/
def mapping (fuel : Nat) (id : NodeId) : Builder (List (Value × Value)) := do
  discard (entriesOf id)
  flatten fuel id
  (← entriesOf id).foldlM (fun es e => do return setEntry (← key e.1) (← value e.2) es) []

/-- The entries of a sequence of mappings with one entry each. -/
def pairs (id : NodeId) : Builder (List (Value × Value)) := do
  (← itemsOf id).mapM fun item => do
    match ← entriesOf item with
    | [(k, v)] => return (← value k, ← value v)
    | _ => fail

/-- What a collection holds. -/
def contents (fuel : Nat) (id : NodeId) : Builder Collection := do
  match ← tagOf id with
  | .seq => return .list (← (← itemsOf id).mapM value)
  | .map => return .map (← mapping fuel id)
  | .set => return .set ((← mapping fuel id).map Prod.fst)
  | .omap => return .pairs (← pairs id)
  | .pairs => return .pairs (← pairs id)
  | _ => fail

/-- Fill a collection. -/
def fill (fuel : Nat) (id : NodeId) : Builder Unit := do
  let c ← contents fuel id
  modify fun s => { s with collections := s.collections.setIfInBounds id (some c) }

/-- Fill the collections that were reached, then those that were reached from them, and so on. -/
def fillAll (size : Nat) : Nat → Builder Unit
  | 0 => fail
  | fuel + 1 => do
    match (← get).waiting with
    | [] => return
    | waiting =>
      modify fun s => { s with waiting := [] }
      waiting.reverse.forM (fill size)
      fillAll size fuel

/-- The value of a node with everything that it leads to. -/
def whole (size : Nat) (id : NodeId) : Builder Document := do
  let root ← value id
  fillAll (2 * size) ((← get).nodes.size + 1)
  return { root, collections := (← get).collections }

end Builder

/-- The value of a YAML text; the null value if the text has no content. This stands for the reader of
a library that is no part of the program: what is proved of all settings, manifests and runs uses
nothing of how it reads, and holds for any reader in its place. -/
def load (s : Text) : Except Error Document := do
  match ← parse s with
  | (none, _) => return { root := .null }
  | (some id, nodes) =>
    let none_ := fun {α : Type} => Array.replicate nodes.size (none : Option α)
    (Builder.whole (s.length + 2) id).run' { nodes, values := none_, collections := none_ }

namespace Document

/-- What a value holds, if it is a collection. -/
def collection? (d : Document) : Value → Option Collection
  | .collection id => d.collections[id]?.join
  | _ => none

/-- The entries of a value that is a mapping. -/
def entries? (d : Document) (v : Value) : Option (List (Value × Value)) :=
  match d.collection? v with
  | some (.map entries) => some entries
  | _ => none

end Document

/-- The value under a text key. -/
def valueAt? (name : Text) (entries : List (Value × Value)) : Option Value :=
  (entries.find? fun e => e.1.sameKey (.text (Message.ofText name))).map Prod.snd

end Localizer.Yaml
