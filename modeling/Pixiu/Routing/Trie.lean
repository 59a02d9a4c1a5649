import Pixiu.Routing.Key

/-!
# The routing trie

The trie of `pkg/common/router/trie/trie.go`.  A node has literal children, one
parameter child shared by every `:x` and `*`, and one `**` child; deletion is
logical (`endOfPath`), so a node once made stays.

A Go map is its lookup function; `none` for the whole map is the `nil` map of a
node no key has passed through yet.  Mutation through the node pointer that `Get`
returns is `modify`, which walks the same way.

Nothing is proved here; `Pixiu.Routing.Address` says what each operation does to
the tree.
-/

namespace Pixiu.Routing

open Pixiu

/-! ## Nodes -/

/-- A trie node (`trie.Node`).  `β` is the type of the route information. -/
structure Node (β : Type) where
  /-- Literal children; `none` is the `nil` map. -/
  children : Option (String → Option (Node β))
  /-- The child for `:x` and `*`. -/
  pathVariableNode : Option (Node β)
  /-- The child for `**`. -/
  matchAllNode : Option (Node β)
  /-- Does a registered path end here? -/
  endOfPath : Bool
  /-- The route information, `none` for `nil`. -/
  bizInfo : Option β

/-- A trie (`trie.Trie`). -/
structure Trie (β : Type) where
  /-- The root, which no key addresses. -/
  root : Node β

variable {β : Type}

namespace Node

/-- The node `&Node{endOfPath: false}`. -/
def fresh : Node β := ⟨none, none, none, false, none⟩

/-- The child along an edge. -/
def child? (n : Node β) : Edge → Option (Node β)
  | .lit s => n.children.bind (· s)
  | .var => n.pathVariableNode
  | .all => n.matchAllNode

/-- Store a child along an edge. -/
def setChild (n : Node β) (e : Edge) (c : Node β) : Node β :=
  match e with
  | .lit s =>
    { n with children := some (Function.update (n.children.getD fun _ => none) s (some c)) }
  | .var => { n with pathVariableNode := some c }
  | .all => { n with matchAllNode := some c }

/-- `Node.putPathVariable`; `none` is the result `false`. -/
def putPathVariable (n : Node β) (isReal : Bool) (bizInfo : β) : Option (Node β) :=
  let c := n.pathVariableNode.getD fresh
  if c.endOfPath && isReal then none
  else some (n.setChild .var { c with
    bizInfo := if isReal then some bizInfo else c.bizInfo
    endOfPath := c.endOfPath || isReal })

/-- `Node.putNode`; `none` is the result `false`. -/
def putNode (n : Node β) (matchStr : String) (isReal : Bool) (bizInfo : β) : Option (Node β) :=
  match n.child? (.lit matchStr) with
  | some old =>
      if old.endOfPath && isReal then none
      else some (n.setChild (.lit matchStr) { old with
        bizInfo := if isReal then some bizInfo else old.bizInfo
        endOfPath := isReal || old.endOfPath })
  | none => some (n.setChild (.lit matchStr) { (fresh : Node β) with
      bizInfo := if isReal then some bizInfo else none
      endOfPath := isReal })

/-- `Node.putMatchAllNode`; `none` is the result `false`.  Unlike its two
siblings it never raises the `endOfPath` flag of a node that exists. -/
def putMatchAllNode (n : Node β) (isReal : Bool) (bizInfo : β) : Option (Node β) :=
  match n.matchAllNode with
  | some old =>
      if old.endOfPath && isReal then none
      else some (n.setChild .all { old with
        bizInfo := if isReal then some bizInfo else old.bizInfo
        endOfPath := old.endOfPath || old.endOfPath })
  | none => some (n.setChild .all { (fresh : Node β) with
      bizInfo := if isReal then some bizInfo else none
      endOfPath := isReal })

/-- `Node.put`; `none` is the result `false`, which leaves the node as it was. -/
def put (n : Node β) (key : String) (isReal : Bool) (bizInfo : β) : Option (Node β) :=
  match edge key with
  | .var => n.putPathVariable isReal bizInfo
  | .all => n.putMatchAllNode isReal bizInfo
  | .lit s => n.putNode s isReal bizInfo

/-- The "empty node initialization" of `internalPut`. -/
def initChildren (n : Node β) : Node β :=
  { n with children := some (n.children.getD fun _ => none) }

/-- `Node.internalPut`: the node afterwards and the reported success. -/
def internalPut : Node β → List String → β → Node β × Bool
  | n, [], _ => (n.initChildren, true)
  | n, key :: childKeys, bizInfo =>
      match n.initChildren.put key childKeys.isEmpty bizInfo with
      | none => (n.initChildren, false)
      | some n' =>
          if isMatchAll key then (n', true)
          else
            -- `put` has just stored the child that the walk goes on from
            let r := internalPut ((n'.child? (edge key)).getD fresh) childKeys bizInfo
            (n'.setChild (edge key) r.1, r.2)

/-- `Node.Get` without the unused parameter names: the node (`none` for `nil`)
and the `ok` flag, or the error for a `**` that is not the last segment. -/
def get : Node β → List String → Except String (Option (Node β) × Bool)
  | _, [] => .ok (none, false)
  | n, [key] =>
      match edge key with
      | .var =>
          match n.pathVariableNode with
          | some c => if c.endOfPath then .ok (some c, true) else .ok (none, false)
          | none => .ok (none, false)
      | .all => .ok (n.matchAllNode, true)
      | .lit s => if n.children.isNone then .ok (none, false) else .ok (n.child? (.lit s), true)
  | n, key :: k :: ks =>
      match edge key with
      | .all => .error "router configuration is empty"
      | e =>
          match n.child? e with
          | none => .ok (none, false)
          | some c => get c (k :: ks)

/-- Change the node whose pointer `get` returns, if it returns one. -/
def modify (f : Node β → Node β) : Node β → List String → Node β
  | n, [] => n
  | n, [key] =>
      match n.child? (edge key) with
      | none => n
      | some c => if edge key = .var ∧ c.endOfPath = false then n else n.setChild (edge key) (f c)
  | n, key :: k :: ks =>
      match edge key with
      | .all => n
      | e =>
          match n.child? e with
          | none => n
          | some c => n.setChild e (modify f c (k :: ks))

/-- `Node.matchAllChild`. -/
def matchAllChild (n : Node β) (key : String) : Option (Node β) :=
  (n.child? (.lit key)).bind Node.matchAllNode

/-- `Node.matchAll`. -/
def matchAll (n : Node β) (key : String) (predicate : Node β → Bool) :
    Option (Node β × List String) :=
  (((n.matchAllChild key).filter predicate).or (n.matchAllNode.filter predicate)).map (·, [])

/-- `Node.matchLiteralEnd`. -/
def matchLiteralEnd (n : Node β) (key : String) (predicate : Node β → Bool) : Option (Node β) :=
  (n.child? (.lit key)).filter fun c => c.endOfPath && predicate c

/-- `Node.matchPathVariableEnd`. -/
def matchPathVariableEnd (n : Node β) (predicate : Node β → Bool) : Option (Node β) :=
  n.pathVariableNode.filter fun c => c.endOfPath && predicate c

/-- `Node.matchEnd`. -/
def matchEnd (n : Node β) (key : String) (predicate : Node β → Bool) :
    Option (Node β × List String) :=
  ((n.matchLiteralEnd key predicate).map (·, [])).or
    (((n.matchPathVariableEnd predicate).map (·, [key])).or (n.matchAll key predicate))

/-- `Node.match`, with `matchRemaining` and the two child helpers in place: the
first accepted node of the traversal and its parameters, last one first.  A `nil`
predicate is the one that accepts everything. -/
def matchParts (predicate : Node β → Bool) : Node β → List String → Option (Node β × List String)
  | _, [] => none
  | n, [key] => n.matchEnd key predicate
  | n, key :: k :: ks =>
      ((n.child? (.lit key)).bind (matchParts predicate · (k :: ks))).or
        (((n.pathVariableNode.bind (matchParts predicate · (k :: ks))).map
            fun r => (r.1, r.2 ++ [key])).or
          (n.matchAll key predicate))

end Node

namespace Trie

/-- `NewTrie`. -/
def newTrie : Trie β := ⟨Node.fresh⟩

/-- `Trie.Put` with its error for `nil` data. -/
def put (t : Trie β) (withOutHost : String) (bizInfo : Option β) : Trie β × Except String Bool :=
  match bizInfo with
  | none => (t, .error "data to put should not be nil.")
  | some b =>
      let r := t.root.internalPut (split withOutHost) b
      (⟨r.1⟩, .ok r.2)

/-- `Trie.Get`. -/
def get (t : Trie β) (withOutHost : String) : Except String (Option (Node β) × Bool) :=
  t.root.get (split withOutHost)

/-- Change the node whose pointer `Trie.Get` returns. -/
def modify (t : Trie β) (withOutHost : String) (f : Node β → Node β) : Trie β :=
  ⟨t.root.modify f (split withOutHost)⟩

/-- `Trie.Remove`: logical deletion.  The node returned is the one before the flag
is cleared. -/
def remove (t : Trie β) (withOutHost : String) : Trie β × Except String (Option (Node β)) :=
  match t.get withOutHost with
  | .error e => (t, .error e)
  | .ok (n, _) => (t.modify withOutHost fun c => { c with endOfPath := false }, .ok n)

/-- `Trie.PutOrUpdate`. -/
def putOrUpdate (t : Trie β) (withOutHost : String) (bizInfo : Option β) :
    Trie β × Except String Bool :=
  match bizInfo with
  | none => (t, .error "data to put should not be nil.")
  | some b =>
      let r := (t.remove withOutHost).1.root.internalPut (split withOutHost) b
      (⟨r.1⟩, .ok r.2)

/-- `Trie.Contains`, whose first result is `true` next to an error. -/
def contains (t : Trie β) (withOutHost : String) : Bool × Option String :=
  match t.get withOutHost with
  | .error e => (true, some e)
  | .ok (n, _) => (n.isSome, none)

/-- `Trie.MatchWithPredicate`; the parameters come back in path order. -/
def matchWithPredicate (t : Trie β) (withOutHost : String) (predicate : Node β → Bool) :
    Option (Node β × List String) :=
  (t.root.matchParts predicate (split (Text.before '?' withOutHost))).map
    fun r => (r.1, r.2.reverse)

/-- `Trie.Match`. -/
def match? (t : Trie β) (withOutHost : String) : Option (Node β × List String) :=
  t.matchWithPredicate withOutHost fun _ => true

end Trie

end Pixiu.Routing
