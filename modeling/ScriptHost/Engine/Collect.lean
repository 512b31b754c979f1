import ScriptHost.Engine.Heap
/-!
# Freeing

Objects are freed as soon as nothing refers to them; objects that refer to each other in a circle,
and what only they refer to, wait for a collection.  Both start from what cannot be reached: the
first kind is what is left over when everything that something unreachable refers to, in a circle
or behind one, is set aside.
-/

namespace ScriptHost

/-- A thing that can refer to others. -/
inductive Node where
  | object (id : Nat)
  | cell (id : Nat)
  | realm (id : Nat)
deriving DecidableEq, Inhabited, Repr

namespace Node

/-! ## References -/

/-- What a value refers to. -/
def ofValue : Value → List Node
  | .object id => [.object id]
  | _ => []

/-- What values refer to. -/
def ofValues (vs : List Value) : List Node := vs.flatMap ofValue

/-- An object that may be absent. -/
def ofObject? : Option Nat → List Node
  | some id => [.object id]
  | none => []

/-- What an activation refers to. -/
def ofFrame (f : Frame) : List Node :=
  ofValues [f.callee, f.this, f.newTarget] ++ ofValues f.args.toList ++
    (f.cells.toList ++ f.captured.toList).map .cell ++ ofValues f.regs.toList ++ ofValues f.stack ++
    f.handlers.flatMap (fun h => ofValues h.2) ++
    (match f.raising with
      | some v => ofValue v
      | none => [])

/-- What an activation that may be absent refers to. -/
def ofFrame? : Option Frame → List Node
  | some f => ofFrame f
  | none => []

/-- What a reaction refers to. -/
def ofReaction (r : Reaction) : List Node := ofValues [r.promise, r.resolve, r.reject, r.handler]

/-- What waiting work refers to. -/
def ofJob : Job → List Node
  | .reaction r _ v => ofReaction r ++ ofValue v
  | .follow p t f => ofValues [p, t, f]
  | .finalize f v => ofValues [f, v]

/-- What an object refers to beyond its properties.  Weak references do not count. -/
def ofBody : Body → List Node
  | .number v => ofValue v
  | .closure c =>
    .realm c.realm :: (c.captured.toList.map .cell ++ ofObject? c.home ++ ofObject? c.initializer)
  | .native f r => .realm r :: ofValues f.data.toList
  | .bound t th args => ofValues (t :: th :: args.toList)
  | .arguments cells => cells.toList.flatMap fun c =>
    match c with
    | some c => [.cell c]
    | none => []
  | .proxy t h _ _ => ofObject? t ++ ofObject? h
  | .map es _ | .set es _ => es.toList.flatMap fun e =>
    match e with
    | some (k, v) => ofValues [k, v]
    | none => []
  -- Only keys are weak: a value is held as long as the map is.
  | .weakMap es => es.toList.flatMap fun e => ofValue e.2
  -- What is handed over when an object is gone is held until then.
  | .registry f r es => .realm r :: (ofValue f ++ es.toList.flatMap fun e => ofValue e.2.1)
  | .promise state fs rs _ =>
    (match state with
      | .pending => []
      | .fulfilled v | .rejected v => ofValue v) ++
      fs.toList.flatMap ofReaction ++ rs.toList.flatMap ofReaction
  | .typed v => [.object v.buffer]
  | .dataView v => [.object v.buffer]
  | .generator _ f => ofFrame? f
  | .asyncGenerator _ f queue =>
    ofFrame? f ++ queue.toList.flatMap fun q => ofValues [q.value, q.promise, q.resolve, q.reject]
  | .coroutine f resolve reject => ofFrame? f ++ ofValues [resolve, reject]
  | .arrayIterator t _ _ | .mapIterator t _ _ | .setIterator t _ _ => ofValue t
  | .regexpIterator r _ _ _ _ => ofValue r
  | .asyncFromSync i n => ofValues [i, n]
  | .wrappedIterator i n => ofValues [i, n]
  | .iteratorHelper _ i n f _ inner innerNext _ _ _ => ofValues [i, n, f, inner, innerNext]
  | .names t _ => ofValue t
  | .module exports => exports.map fun e => .cell e.2
  | _ => []

/-- What a property refers to. -/
def ofProperty (p : Property) : List Node :=
  match p.content with
  | .data v _ => ofValue v
  | .accessor g s => ofObject? g ++ ofObject? s
  | .lazyPrototype => []

/-- What a realm refers to. -/
def ofRealm (r : Realm) : List Node :=
  .object r.global :: (r.intrinsics.toList.flatMap ofObject? ++
    r.names.toList.map (fun n => .cell n.cell) ++ ofValue r.traceLimit)

end Node

namespace Machine

/-- What an object refers to. -/
def objectRefs (o : Obj) : List Node :=
  Node.ofObject? o.proto ++ Node.ofBody o.body ++
    (o.props.members.foldl (fun ns p => Node.ofProperty p.2 ++ ns)
      (o.props.indices.foldl (fun ns _ p => Node.ofProperty p ++ ns) []))

/-- What a thing refers to. -/
def refs (m : Machine) : Node → List Node
  | .object id => objectRefs (m.obj id)
  | .cell id => Node.ofValue (m.cell id)
  | .realm id => Node.ofRealm (m.realms[id]?.getD {})

/-- What the machine itself refers to: realms that are alive and work that was put off. -/
def ownRoots (m : Machine) : List Node :=
  ((List.range m.realms.size).filter fun r => (m.realms[r]?.getD {}).isAlive).map .realm ++
    m.jobs.toList.flatMap fun j => .realm j.1 :: Node.ofJob j.2

end Machine

/-! ## Tables over things -/

/-- A number for each thing. -/
structure NodeTable (α : Type) where
  objects : Array α
  cells : Array α
  realms : Array α

namespace NodeTable

variable {α : Type}

/-- The same number for everything. -/
def fill (m : Machine) (a : α) : NodeTable α :=
  ⟨.replicate m.heap.size a, .replicate m.cells.size a, .replicate m.realms.size a⟩

/-- The number of a thing. -/
def get (t : NodeTable α) (default : α) : Node → α
  | .object id => t.objects[id]?.getD default
  | .cell id => t.cells[id]?.getD default
  | .realm id => t.realms[id]?.getD default

/-- Changes the number of a thing. -/
def update (t : NodeTable α) (f : α → α) : Node → NodeTable α
  | .object id => { t with objects := t.objects.modify id f }
  | .cell id => { t with cells := t.cells.modify id f }
  | .realm id => { t with realms := t.realms.modify id f }

end NodeTable

namespace Machine

/-- How many things there are. -/
def nodeCount (m : Machine) : Nat := m.heap.size + m.cells.size + m.realms.size

/-- Every thing. -/
def nodes (m : Machine) : List Node :=
  (List.range m.heap.size).map .object ++ (List.range m.cells.size).map .cell ++
    (List.range m.realms.size).map .realm

/-- Marks things that are not marked yet and puts them on the list of work. -/
def markNew (marks : NodeTable Bool) (work : List Node) : List Node → NodeTable Bool × List Node
  | [] => (marks, work)
  | n :: ns =>
    if marks.get true n then markNew marks work ns
    else markNew (marks.update (fun _ => true) n) (n :: work) ns

/-- Marks what can be reached from the list of work; each thing enters it once. -/
def markFrom (m : Machine) : Nat → NodeTable Bool → List Node → NodeTable Bool
  | 0, marks, _ => marks
  | _, marks, [] => marks
  | fuel + 1, marks, n :: work =>
    let (marks, work) := markNew marks work (m.refs n)
    markFrom m fuel marks work

/-- Marks what can be reached from some things. -/
def reachable (m : Machine) (roots : List Node) : NodeTable Bool :=
  let (marks, work) := markNew (.fill m false) [] roots
  m.markFrom (m.nodeCount + 1) marks work

/-- The things without a mark. -/
def garbage (m : Machine) (marks : NodeTable Bool) : List Node :=
  m.nodes.filter fun n => !marks.get true n

/-- Takes one reference to a thing away; the thing joins those that are ready if it was the last. -/
def unref : NodeTable Nat × List Node → Node → NodeTable Nat × List Node
  | (counts, ready), n =>
    match counts.get 0 n with
    | 0 => (counts, ready)
    | 1 => (counts.update (fun _ => 0) n, n :: ready)
    | _ => (counts.update (· - 1) n, ready)

/-- Takes away, one after the other, things that nothing left refers to; gives the objects among
them in that order.  Things that are ready wait, the last one first, until the work is done. -/
def peel (m : Machine) : Nat → NodeTable Nat → List Node → List Node → List Nat → List Nat
  | 0, _, _, _, out => out.reverse
  | _, _, [], [], out => out.reverse
  | fuel + 1, counts, [], ready, out => peel m fuel counts ready.reverse [] out
  | fuel + 1, counts, n :: work, ready, out =>
    let out := match n with
      | .object id => id :: out
      | _ => out
    let (counts, ready) := (m.refs n).foldl unref (counts, ready)
    peel m fuel counts work ready out

/-- How many things without a mark refer to each thing without a mark. -/
def countRefs (m : Machine) (marks : NodeTable Bool) (garbage : List Node) : NodeTable Nat :=
  garbage.foldl (fun t n => (m.refs n).foldl (fun t r =>
    if marks.get true r then t else t.update (· + 1) r) t) (NodeTable.fill m 0)

/-- The unreachable objects that are in no circle and behind none. -/
def loose (m : Machine) (roots : List Node) : List Nat :=
  let marks := m.reachable roots
  let garbage := m.garbage marks
  let counts := m.countRefs marks garbage
  m.peel (2 * m.nodeCount + 2) counts (garbage.filter fun n => counts.get 0 n == 0) [] []

/-! ## Freeing -/

/-- Leaves nothing of an object but its place. -/
def blankOut (m : Machine) (id : Nat) : Machine :=
  { m with heap := m.heap.setIfInBounds id { body := .freed }, freed := m.freed + 1 }

/-- Gives up the memory of a buffer. -/
def giveUpMemory (m : Machine) (b : Buffer) : Machine :=
  let m := match b.region with
    | some r =>
      let size := (m.region r).size
      { m with regions := m.regions.setIfInBounds r .empty, regionBytes := m.regionBytes - size }
    | none => m
  match b.token with
  | some t => { m with released := m.released.push t }
  | none => m

/-- Frees an object. -/
def free (m : Machine) (id : Nat) : Machine :=
  match m.body id with
  | .buffer b => (m.blankOut id).giveUpMemory b
  | _ => m.blankOut id

/-- Whether a value was freed. -/
def isGone (m : Machine) : Value → Bool
  | .object id =>
    match m.body id with
    | .freed => true
    | _ => false
  | _ => false

/-- Lets one object notice which of its weak references were freed. -/
def noticeGone (m : Machine) (id : Nat) : Machine :=
  match m.body id with
  | .weakRef (some t) =>
    if m.isGone t then m.update id fun o => { o with body := .weakRef none } else m
  | .weakMap es =>
    if es.any (fun e => m.isGone e.1) then
      m.update id fun o => { o with body := .weakMap (es.filter fun e => !m.isGone e.1) }
    else m
  | .weakSet vs =>
    if vs.any m.isGone then
      m.update id fun o => { o with body := .weakSet (vs.filter fun v => !m.isGone v) }
    else m
  | .registry f realm es =>
    -- If the object is gone the entry is due; if only the token is gone, the entry can no longer be
    -- withdrawn but stays.
    if es.any (fun e => m.isGone e.1 || m.isGone e.2.2) then
      let due := es.filter fun e => m.isGone e.1
      let kept := (es.filter fun e => !m.isGone e.1).map fun e =>
        if m.isGone e.2.2 then (e.1, e.2.1, .undefined) else e
      let m := m.update id fun o => { o with body := .registry f realm kept }
      { m with jobs := m.jobs ++ due.map fun e => (realm, .finalize f e.2.1) }
    else m
  | _ => m

/-- Frees objects and lets all others notice. -/
def freeAll (m : Machine) (ids : List Nat) : Machine :=
  let m := ids.foldl free m
  (List.range m.heap.size).foldl noticeGone m

/-- Whether an object is still there. -/
def isThere (m : Machine) (id : Nat) : Bool := !m.isGone (.object id)

/-- Frees what nothing refers to any more. -/
def settle (m : Machine) (roots : List Node) : Nat → Machine
  | 0 => m
  | fuel + 1 =>
    match (m.loose (roots ++ m.ownRoots)).filter m.isThere with
    | [] => m
    | ids => settle (m.freeAll ids) roots fuel

/-- Frees what cannot be reached. -/
def collect (m : Machine) (roots : List Node) : Nat → Machine
  | 0 => m
  | fuel + 1 =>
    let ids := (m.garbage (m.reachable (roots ++ m.ownRoots))).filterMap fun n =>
      match n with
      | .object id => if m.isThere id then some id else none
      | _ => none
    match ids with
    | [] => m
    | ids => collect (m.freeAll ids) roots fuel

end Machine

end ScriptHost
