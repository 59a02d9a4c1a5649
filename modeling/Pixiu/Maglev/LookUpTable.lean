import Pixiu.Base.Turns
import Pixiu.Cluster.Endpoint

/-!
# Maglev lookup tables

`LookUpTable` of `pkg/cluster/loadbalancer/maglev`: how `NewLookUpTable` sets one up, how `Populate`
fills it, and how hosts join it, leave it and are looked up.  Every host has a permutation of the
slots, and the permutations take turns: each takes the first free slot of its own, until no slot is
left or none of them finds one.

The permutations stand in the order in which Go delivers the entries of the map of buckets; that
order is an argument here.  `hash1` and `hash2` stand for the first four bytes of SHA3-512 and of
BLAKE2b-512, `requestHash` for the low half of xxHash.  A function that divides by zero or asks for
a negative number of slots panics, and returns nothing.
-/

namespace Pixiu.Maglev

open Cluster Turns

/-- A host; it is never empty, as a slot without a host is. -/
abbrev Host := { host : String // host ≠ "" }

instance : LawfulBEq Host := inferInstance

theorem getHost_ne_empty (address : String) (port : ℤ) :
    address ++ (":" ++ toString port) ≠ "" := by
  intro h
  have hlist := congrArg String.toList h
  simp [String.toList_append] at hlist

/-- `Endpoint.GetHost`. -/
def getHost (e : Endpoint) : Host :=
  ⟨e.address.address ++ (":" ++ toString e.address.port), getHost_ne_empty _ _⟩

/-- `defaultTableSize`. -/
def defaultTableSize : List ℤ :=
  [307, 503, 1511, 2503, 5099, 7877,
   10007, 14207, 20903, 40423, 88721,
   123911, 164821, 199999, 218077, 299777,
   344941, 399989, 463031, 514399, 604613,
   686669, 726337, 799789, 857011, 999983]

/-- `permutation`. -/
structure Permutation where
  offset : UInt32
  skip : UInt32
  next : ℕ := 0
  index : ℕ
  hit : ℕ := 0
  deriving DecidableEq

/-- `permutation.position`, with the wraparound of 32-bit arithmetic. -/
def Permutation.position (p : Permutation) (j : ℕ) (size : UInt32) : UInt32 :=
  (p.offset + UInt32.ofNat j * p.skip) % size

/-- `LookUpTable`; the buckets are the entries of a map, in the order of their keys. -/
structure LookUpTable where
  slots : List String := []
  permutations : List Permutation := []
  buckets : List (ℕ × Host)
  endpointNum : ℕ
  size : ℤ
  deriving DecidableEq

/-- The error of `NewLookUpTable`. -/
def tableSizeError (tableSize : ℤ) : String :=
  "table size should be a prime number that greater than at least 100 times of endpoints size, " ++
    "but got " ++ toString tableSize ++ " instead"

/-- `NewLookUpTable`. -/
def newLookUpTable (tableSize : ℤ) (hosts : List Host) : Except String LookUpTable :=
  let expectN : ℤ := hosts.length * 100
  let tableSize :=
    if tableSize = 0 then (defaultTableSize.find? (expectN < ·)).getD 0 else tableSize
  if tableSize < expectN ∧ ¬ Nat.Prime (tableSize % 2 ^ 64).toNat then
    .error (tableSizeError tableSize)
  else .ok { buckets := hosts.zipIdx.map Prod.swap, endpointNum := hosts.length, size := tableSize }

namespace LookUpTable

variable (t : LookUpTable)

/-- `len(t.slots)` once the table is populated. -/
def len : ℕ := t.size.toNat

/-- `uint32(t.size)`. -/
def modulus : UInt32 := UInt32.ofNat t.len

/-- `t.buckets[i]`. -/
def bucket (i : ℕ) : String := ((t.buckets.lookup i).map Subtype.val).getD ""

section Populate

variable (hash1 hash2 : String → UInt32)

/-- The permutation that `generatePerm` appends, when it does not divide by zero. -/
def permutationOf (host : Host) (i : ℕ) : Permutation where
  offset := hash1 host % t.modulus
  skip := hash2 host % (t.modulus - 1) + 1
  index := i

/-- `generatePerm`. -/
def generatePerm (host : Host) (i : ℕ) : Option Permutation :=
  if t.modulus = 0 ∨ t.modulus - 1 = 0 then none else some (t.permutationOf hash1 hash2 host i)

/-- `generatePerms`, for the entries of the map in some order. -/
def generatePerms (order : List (ℕ × Host)) : Option (List Permutation) :=
  order.mapM fun b => t.generatePerm hash1 hash2 b.2 b.1

end Populate

/-- What the loop of `populate` changes besides the permutations. -/
structure Filling where
  slots : List String
  full : ℕ := 0
  miss : ℕ := 0
  deriving DecidableEq

/-- The inner loop of `populate`: the first place from `next` on whose slot is free. -/
def scan (slots : List String) (p : Permutation) : ℕ :=
  ((List.range' p.next (t.len - p.next)).find? fun start =>
    slots.getD (p.position start t.modulus).toNat "" = "").getD t.len

/-- One permutation takes its turn. -/
def visit (f : Filling) (p : Permutation) : Filling × Permutation :=
  if p.next = t.len then (f, p)
  else
    let start := t.scan f.slots p
    if start < t.len then
      ({ f with
          slots := f.slots.set (p.position start t.modulus).toNat (t.bucket p.index)
          full := f.full + 1 },
        { p with hit := p.hit + 1, next := start })
    else ({ f with miss := f.miss + 1 }, { p with next := start })

/-- All permutations take their turn. -/
def round : Filling → List Permutation → Filling × List Permutation
  | f, [] => (f, [])
  | f, p :: permutations =>
      let visited := t.visit f p
      let rest := round visited.1 permutations
      (rest.1, visited.2 :: rest.2)

/-- The outer loop of `populate`. -/
def loop : ℕ → Filling → List Permutation → Filling × List Permutation
  | 0, f, permutations => (f, permutations)
  | fuel + 1, f, permutations =>
      if f.miss < t.endpointNum ∧ f.full < t.len then
        let done := t.round f permutations
        loop fuel done.1 done.2
      else (f, permutations)

/-- The permutation that `fillMissingSlots` looks for; there is none below `math.MaxInt` in an empty
list. -/
def leastPlaced (permutations : List Permutation) : Option Permutation :=
  permutations.foldl (fun minP p => match minP with
    | none => some p
    | some q => if p.hit < q.hit then some p else some q) none

/-- `fillMissingSlots`; it is not called without a permutation. -/
def fillMissingSlots (slots : List String) (permutations : List Permutation) :
    List String × List Permutation :=
  match leastPlaced permutations with
  | none => (slots, permutations)
  | some minP =>
      (slots.map fun s => if s = "" then t.bucket minP.index else s,
        permutations.map fun p =>
          if p.index = minP.index then { p with hit := p.hit + slots.count "" } else p)

/-- `populate`. -/
def populateFrom (permutations : List Permutation) : LookUpTable :=
  let done := t.loop (t.len + t.endpointNum) { slots := List.replicate t.len "" } permutations
  if done.1.full ≠ t.len ∧ done.1.miss > 0 then
    let filled := t.fillMissingSlots done.1.slots done.2
    { t with slots := filled.1, permutations := filled.2 }
  else { t with slots := done.1.slots, permutations := done.2 }

/-- `Populate`, for an order of the map of buckets; nothing where it panics, for a negative size or
on a division by zero. -/
def populate (hash1 hash2 : String → UInt32) (order : List (ℕ × Host)) : Option LookUpTable := do
  let permutations ← t.generatePerms hash1 hash2 order
  if t.size < 0 then none else some (t.populateFrom permutations)

/-! ## Hosts that come and go -/

/-- `resetPerms`. -/
def resetPerms : LookUpTable :=
  { t with permutations := t.permutations.map fun p => { p with next := 0, hit := 0 } }

/-- `removePerm`. -/
def removePerm (dst : ℕ) : LookUpTable :=
  { t with permutations := t.permutations.eraseP (·.index = dst) }

/-- `add`, which `Add` calls. -/
def add (hash1 hash2 : String → UInt32) (host : Host) : Option LookUpTable :=
  if host ∈ t.buckets.map Prod.snd then some t
  else do
    let dst := (t.buckets.map Prod.fst).foldl max 0
    let t := { t with buckets := t.buckets ++ [(dst + 1, host)], endpointNum := t.endpointNum + 1 }
    let t := t.resetPerms
    let p ← t.generatePerm hash1 hash2 host (dst + 1)
    if t.size < 0 then none else some (t.populateFrom (t.permutations ++ [p]))

/-- `remove`, which `Remove` calls. -/
def remove (host : String) : Option (LookUpTable × Bool) :=
  if t.endpointNum = 0 then some (t, false)
  else
    match t.buckets.find? (·.2.val = host) with
    | none => some (t, false)
    | some b =>
        let t :=
          { t with buckets := t.buckets.filter (·.1 ≠ b.1), endpointNum := t.endpointNum - 1 }
        let t := (t.removePerm b.1).resetPerms
        if t.size < (0 : ℤ) then none else some (t.populateFrom t.permutations, true)

/-! ## Looking up -/

/-- The answer for a hash value, in `Get` and `GetHash`. -/
def lookUp (hash : UInt32) : Option (Except String String) :=
  if t.slots.length = 0 then
    some (.error "no slot initialized, please call Populate() before Get()")
  else if t.size = 0 ∨ t.endpointNum = 0 then some (.error "no host added")
  else if t.modulus = 0 then none
  else t.slots[(hash % t.modulus).toNat]?.map .ok

/-- `Get`. -/
def get (requestHash : String → UInt32) (key : String) : Option (Except String String) :=
  t.lookUp (requestHash key)

/-- `GetHash`. -/
def getHash (key : UInt32) : Option (Except String String) := t.lookUp key

end LookUpTable

end Pixiu.Maglev
