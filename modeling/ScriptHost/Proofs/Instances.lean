import ScriptHost.Client.TypeQueries
import ScriptHost.Proofs.Builtins
/-!
# Calling what the engine supplies

A call of a function that the engine supplies leaves behind what the function does to the machine,
and nothing of the call itself.  So asking whether something is an instance of a constructor, which
calls a function, changes nothing where the constructor judges by prototypes.  A walk along prototypes
meets those that the objects show, as long as the handlers of the proxies among them leave that to
their targets.
-/

namespace ScriptHost

namespace Eval

open Machine (Descends Makes Performs Spares)

variable {α β : Type} {I : Interp} {m m₁ m₂ : Machine} {id j p f g : Nat} {ps : List Nat} {k : Key}
  {pr : Property} {v w : Value} {r : RealmId} {run : NativeCall → Eval Value} {args : Array Value}

/-! ## Computations that throw -/

theorem bind_of_error {x : Eval α} {h : α → Eval β} (hx : x I m = .error v m₁) :
    (x >>= h) I m = .error v m₁ := by
  change EStateM.bind (x I) (fun a => h a I) m = _
  unfold EStateM.bind
  rw [hx]

theorem tryCatch_of_ok {x : Eval α} {h : Value → Eval α} {a : α} (hx : x I m = .ok a m₁) :
    tryCatch x h I m = .ok a m₁ := by
  change EStateM.tryCatch (x I) (fun e => h e I) m = _
  simp [EStateM.tryCatch, hx]

theorem tryCatch_of_error {x : Eval α} {h : Value → Eval α} (hx : x I m = .error v m₁) :
    tryCatch x h I m = h v I m₁ := by
  change EStateM.tryCatch (x I) (fun e => h e I) m = _
  simp [EStateM.tryCatch, hx]
  rfl

/-! ## Reading properties that were found -/

theorem settleOwn_value (h : pr.value? = some v) : settleOwn id k pr I m = .ok pr m := by
  rcases pr with ⟨content, e, c⟩
  cases content with
  | data _ _ => rfl
  | accessor _ _ => cases h
  | lazyPrototype => cases h

theorem getOf_value (hfind : m.find k (some id) = .property j pr) (hv : pr.value? = some v) :
    getOf (.object id) k I m = .ok v m := by
  have hget : getOf (.object id) k = getRule (reading 999) id k (.object id) := rfl
  rw [hget, getRule, get_bind, hfind]
  dsimp only
  rw [bind_of_ok (settleOwn_value hv)]
  rcases pr with ⟨content, e, c⟩
  cases content with
  | data _ _ =>
      cases hv
      rfl
  | accessor _ _ => cases hv
  | lazyPrototype => cases hv

/-- What a getter finds out is read by calling it. -/
theorem getOf_accessor {s : Option Nat} (hfind : m.find k (some id) = .property j pr)
    (hcontent : pr.content = .accessor (some g) s) :
    getOf (.object id) k I m = call (.object g) (.object id) #[] I m := by
  have hget : getOf (.object id) k = getRule (reading 999) id k (.object id) := rfl
  have hsettle : settleOwn j k pr I m = .ok pr m := by
    unfold settleOwn
    rw [hcontent]
    rfl
  rw [hget, getRule, get_bind, hfind]
  dsimp only
  rw [bind_of_ok hsettle]
  unfold readProperty
  rw [hcontent]

/-! ## Prototypes -/

/-- An object that is no proxy has the prototype that is written down for it. -/
theorem protoRule_eq (r : Reading) (hproxy : ∀ t hd c b, m.body id ≠ .proxy t hd c b) :
    protoRule r id I m = .ok (m.obj id).proto m := by
  have hbody : body id I m = .ok (m.body id) m := rfl
  rw [protoRule, bind_of_ok hbody]
  cases hkind : m.body id with
  | proxy t hd c b => exact absurd hkind (hproxy t hd c b)
  | _ => rfl

theorem protoOf_eq (hproxy : ∀ t hd c b, m.body id ≠ .proxy t hd c b) :
    protoOf id I m = .ok (m.obj id).proto m :=
  protoRule_eq (reading 999) hproxy

/-- Walking up the prototypes of an object meets just these. -/
theorem hasPrototype_eq (h : m.Descends id ps) (hproxy : ∀ t hd c b, m.body id ≠ .proxy t hd c b)
    {fuel : Nat} (hfuel : ps.length < fuel) :
    hasPrototype p fuel id I m = .ok (decide (p ∈ ps)) m := by
  induction ps generalizing id fuel with
  | nil =>
      obtain ⟨fuel, rfl⟩ := Nat.exists_eq_succ_of_ne_zero (Nat.ne_zero_of_lt hfuel)
      have hnone : (m.obj id).proto = none := h
      rw [hasPrototype, bind_of_ok (protoOf_eq hproxy), hnone]
      simp
      rfl
  | cons q qs ih =>
      obtain ⟨fuel, rfl⟩ := Nat.exists_eq_succ_of_ne_zero (Nat.ne_zero_of_lt hfuel)
      rw [hasPrototype, bind_of_ok (protoOf_eq hproxy), h.1]
      dsimp only
      by_cases hq : q = p
      · subst hq
        simp
        rfl
      · have hrest := ih h.2.2 h.2.1.not_proxy (Nat.lt_of_succ_lt_succ hfuel)
        rw [if_neg (by simpa using hq), hrest]
        simp [Ne.symm hq]

/-! ## Calls -/

/-- The machine while a function is called. -/
def entered (m : Machine) (site : CallSite) : Machine :=
  { m with calls := site :: m.calls, stackUsed := m.stackUsed + stackBytes site }

/-- The machine when a call that began in another machine is over. -/
def left (m m' : Machine) : Machine :=
  { m' with calls := m.calls, realm := m.realm, stackUsed := m.stackUsed }

section Site

variable {site : CallSite} {x : Eval α}
  (hroom : ∀ limit ∈ m.limits.stack, m.stackUsed + stackBytes site ≤ limit)
include hroom

theorem withSite_eq : withSite site x I m = (do
    try
      let a ← x
      modify fun m' => left m m'
      pure a
    catch e =>
      modify fun m' => left m m'
      throw e : Eval α) I (entered m site) := by
  unfold withSite
  rw [get_bind]
  dsimp only
  cases hlimit : m.limits.stack with
  | none => rfl
  | some limit =>
      have hfits : ¬m.stackUsed + stackBytes site > limit := Nat.not_lt.2 (hroom limit hlimit)
      dsimp only
      rw [if_neg hfits]
      rfl

theorem withSite_ok {a : α} (hx : x I (entered m site) = .ok a m₁) :
    withSite site x I m = .ok a (left m m₁) := by
  rw [withSite_eq hroom]
  refine tryCatch_of_ok ?_
  rw [bind_of_ok hx]
  rfl

theorem withSite_error (hx : x I (entered m site) = .error v m₁) :
    withSite site x I m = .error v (left m m₁) := by
  rw [withSite_eq hroom]
  refine (tryCatch_of_error (bind_of_error hx)).trans ?_
  rfl

end Site

/-- The machine while a function of a realm is called that the engine supplies. -/
def inside (m : Machine) (f : Nat) (r : RealmId) : Machine :=
  { entered m ⟨.object f, none, {}⟩ with realm := r }

/-- There is room for a call of a function that the engine supplies. -/
def RoomToCall (m : Machine) : Prop :=
  ∀ limit ∈ m.limits.stack, m.stackUsed + stackBytes ⟨.undefined, none, {}⟩ ≤ limit

/-- What a supplied function does when it is called as part of a call. -/
theorem callNative_ok {ref : NativeRef} {n : Native} {this target : Value}
    (hsupply : Builtin.supply ref.family ref.index = some n) (hroom : RoomToCall m)
    (hrun : n.run ⟨this, args, target, f, ref.data⟩ I (inside m f r) = .ok v m₁) :
    callNative Builtin.supply f ref r this target args I m = .ok v (left m m₁) := by
  have hfits : ∀ limit ∈ m.limits.stack, m.stackUsed + stackBytes ⟨.object f, none, {}⟩ ≤ limit :=
    hroom
  unfold callNative
  rw [hsupply]
  exact withSite_ok hfits hrun

theorem callNative_error {ref : NativeRef} {n : Native} {this target : Value}
    (hsupply : Builtin.supply ref.family ref.index = some n) (hroom : RoomToCall m)
    (hrun : n.run ⟨this, args, target, f, ref.data⟩ I (inside m f r) = .error v m₁) :
    callNative Builtin.supply f ref r this target args I m = .error v (left m m₁) := by
  have hfits : ∀ limit ∈ m.limits.stack, m.stackUsed + stackBytes ⟨.object f, none, {}⟩ ≤ limit :=
    hroom
  unfold callNative
  rw [hsupply]
  exact withSite_error hfits hrun

variable {d : Nat}

/-- Calling a supplied function runs it. -/
theorem call_performs {this : Value} (hf : m.Performs r run f) (hroom : RoomToCall m)
    (hrun : ∀ data, run ⟨this, args, .undefined, f, data⟩ (interp Builtin.supply d)
      (inside m f r) = .ok v m₁) :
    call (.object f) this args (interp Builtin.supply (d + 1)) m = .ok v (left m m₁) := by
  rcases hf with ⟨ref, n, hbody, hsupply, rfl⟩
  have hcall : call (.object f) this args (interp Builtin.supply (d + 1)) m =
      callRule Builtin.supply (.object f) this args (interp Builtin.supply d) m := rfl
  have hbody' : body f (interp Builtin.supply d) m = .ok (.native ref r) m := by
    rw [← hbody]
    rfl
  rw [hcall, callRule, bind_of_ok hbody']
  exact callNative_ok hsupply hroom (hrun ref.data)

section Constructing

variable {target : Value} (hf : m.Performs r run f) (hconstructs : m.constructs (.object f) = true)
  (hroom : RoomToCall m)
include hf hconstructs hroom

omit hroom in
theorem constructRule_eq (args : Array Value) (target : Value) (d : Nat) : ∃ ref n,
    Builtin.supply ref.family ref.index = some n ∧ n.run = run ∧
    construct (.object f) args target (interp Builtin.supply (d + 1)) m =
      callNative Builtin.supply f ref r .undefined target args (interp Builtin.supply d) m := by
  rcases hf with ⟨ref, n, hbody, hsupply, hrun⟩
  refine ⟨ref, n, hsupply, hrun, ?_⟩
  have hcall : construct (.object f) args target (interp Builtin.supply (d + 1)) m =
      constructRule Builtin.supply (.object f) args target (interp Builtin.supply d) m := rfl
  have hbody' : body f (interp Builtin.supply d) m = .ok (.native ref r) m := by
    rw [← hbody]
    rfl
  rw [hcall, constructRule, get_bind, hconstructs]
  dsimp only
  rw [if_neg (by simp), bind_of_ok hbody']

/-- Constructing with a supplied function runs it. -/
theorem construct_performs (hrun : ∀ data, run ⟨.undefined, args, target, f, data⟩
      (interp Builtin.supply d) (inside m f r) = .ok v m₁) :
    construct (.object f) args target (interp Builtin.supply (d + 1)) m =
      .ok v (left m m₁) := by
  rcases constructRule_eq hf hconstructs args target d with ⟨ref, n, hsupply, rfl, hcall⟩
  rw [hcall]
  exact callNative_ok hsupply hroom (hrun ref.data)

theorem construct_throws (hrun : ∀ data, run ⟨.undefined, args, target, f, data⟩
      (interp Builtin.supply d) (inside m f r) = .error v m₁) :
    construct (.object f) args target (interp Builtin.supply (d + 1)) m =
      .error v (left m m₁) := by
  rcases constructRule_eq hf hconstructs args target d with ⟨ref, n, hsupply, rfl, hcall⟩
  rw [hcall]
  exact callNative_error hsupply hroom (hrun ref.data)

end Constructing

/-! ## Instances -/

/-- While a function is called all objects are there as they were. -/
theorem inside_spares (m : Machine) (f : Nat) (r : RealmId) :
    Spares (fun _ => True) m (inside m f r) := .of_heap rfl rfl rfl

theorem getOf_prototype (h : m.Makes f p) :
    getOf (.object f) (Key.str "prototype") I m = .ok (.object p) m := by
  rcases Machine.exists_of_bind_value h.prototype with ⟨pr, hget, hvalue⟩
  rcases h.judge with ⟨ps, -, -, hps, -⟩
  have hfirst : m.firstProperty (Key.str "prototype") (f :: ps) = some pr := by
    rw [Machine.firstProperty, List.findSome?_cons, hget]
  rcases Machine.find_plain hps h.plain hfirst with ⟨j, hfind⟩
  exact getOf_value hfind hvalue

/-- A constructor that judges by prototypes finds out what a walk along them does. -/
theorem ordinaryInstanceOf_walk {found : Bool} (h : m.Makes f p)
    (hwalk : hasPrototype p (m.heap.size + 1) id I m = .ok found m) {fuel : Nat} :
    ordinaryInstanceOf (fuel + 1) (.object id) (.object f) I m = .ok found m := by
  rcases h.native with ⟨ref, r, hbody⟩
  have hcallable : callable (.object f) I m = .ok true m := by
    have hyes : m.callable (.object f) = true := by simp [Machine.callable, Machine.isCallable, hbody]
    rw [← hyes]
    rfl
  have hbody' : body f I m = .ok (.native ref r) m := by
    rw [← hbody]
    rfl
  have hprototype : getNamed f "prototype" I m = .ok (.object p) m := getOf_prototype h
  rw [ordinaryInstanceOf, bind_of_ok hcallable, if_neg (by simp), bind_of_ok hbody']
  dsimp only
  rw [bind_of_ok hprototype]
  dsimp only
  rw [get_bind]
  exact hwalk

/-- Asking a constructor that judges by prototypes calls a function, which leaves nothing behind. -/
theorem instanceOf_walk {found : Bool} (h : m.Makes f p) (hroom : RoomToCall m)
    (hwalk : ∀ g r, hasPrototype p (m.heap.size + 1) id (interp Builtin.supply d) (inside m g r) =
      .ok found (inside m g r)) :
    instanceOf (.object id) (.object f) (interp Builtin.supply (d + 1)) m = .ok found m := by
  rcases h.judge with ⟨qs, g, r, hqs, hfirst, hg⟩
  rcases Machine.exists_of_bind_value hfirst with ⟨pr, hpr, hvalue⟩
  rcases Machine.find_plain hqs h.plain hpr with ⟨j, hfind⟩
  have hmethod : getOf (.object f) (.symbol WellKnown.hasInstance)
      (interp Builtin.supply (d + 1)) m = .ok (.object g) m := getOf_value hfind hvalue
  -- The function is called with the constructor as its receiver.
  have hcall : call (.object g) (.object f) #[.object id] (interp Builtin.supply (d + 1)) m =
      .ok (.bool found) (left m (inside m g r)) := by
    refine call_performs hg hroom fun data => ?_
    have hmakes : (inside m g r).Makes f p := (h.spared (inside_spares m g r) trivial).1
    have hjudged : ordinaryInstanceOf proxyDepth (.object id) (.object f)
        (interp Builtin.supply d) (inside m g r) = .ok found (inside m g r) :=
      ordinaryInstanceOf_walk hmakes (hwalk g r)
    exact bind_of_ok hjudged
  unfold instanceOf askInstanceOf
  dsimp only
  rw [bind_of_ok hmethod, if_pos (by rfl), bind_of_ok hcall]
  rfl

/-- What an object is an instance of is told by its prototypes. -/
theorem instanceOf_eq (h : m.Makes f p) (hv : m.Descends id ps)
    (hproxy : ∀ t hd c b, m.body id ≠ .proxy t hd c b) (hroom : RoomToCall m) :
    instanceOf (.object id) (.object f) (interp Builtin.supply (d + 1)) m =
      .ok (decide (p ∈ ps)) m := by
  refine instanceOf_walk h hroom fun g r => ?_
  have hheap : (inside m g r).heap = m.heap := rfl
  have hprotos : (inside m g r).Descends id ps := hv.of_heap hheap
  exact hasPrototype_eq hprotos hproxy (Nat.lt_succ_of_le hv.length_le)

end Eval

/-! ## The machine amid calls -/

namespace Machine

variable (m : Machine) (r : RealmId) (calls : List CallSite) (used : Nat)

theorem findFrom_amid (k : Key) (fuel : Nat) (start : Option Nat) :
    (m.amid r calls used).findFrom k fuel start = m.findFrom k fuel start := by
  induction fuel generalizing start with
  | zero => rfl
  | succ fuel ih =>
      cases start with
      | none => rfl
      | some id =>
          rw [findFrom, findFrom, ih]
          rfl

theorem leavesToTarget_amid (handler : Nat) (operation : String) :
    (m.amid r calls used).leavesToTarget handler operation = m.leavesToTarget handler operation := by
  have hfind : (m.amid r calls used).find (Key.str operation) (some handler) =
      m.find (Key.str operation) (some handler) := m.findFrom_amid r calls used _ _ _
  unfold leavesToTarget
  rw [hfind]

theorem shownFrom_amid (depth id : Nat) :
    (m.amid r calls used).shownFrom depth id = m.shownFrom depth id := by
  have hbody : ∀ j, (m.amid r calls used).body j = m.body j := fun _ => rfl
  induction depth generalizing id with
  | zero => rfl
  | succ depth ih =>
      rw [shownFrom, shownFrom, hbody]
      split
      · rw [leavesToTarget_amid, ih]
      · rfl
      · rfl

theorem ancestors_amid (id : Nat) : (m.amid r calls used).ancestors id = m.ancestors id := by
  have hfrom : ∀ fuel id, (m.amid r calls used).ancestorsFrom fuel id = m.ancestorsFrom fuel id := by
    intro fuel
    induction fuel with
    | zero => exact fun _ => rfl
    | succ fuel ih =>
        intro id
        rw [ancestorsFrom, ancestorsFrom, shownProto, shownFrom_amid, ← shownProto]
        simp only [ih]
  exact hfrom _ _

theorem inherits_amid (v f : Value) : (m.amid r calls used).inherits v f = m.inherits v f := by
  unfold inherits
  simp only [ancestors_amid]
  rfl

theorem constructs_amid (v : Value) : (m.amid r calls used).constructs v = m.constructs v := by
  have hin : ∀ fuel id, (m.amid r calls used).constructsIn fuel id = m.constructsIn fuel id := by
    intro fuel
    induction fuel with
    | zero => exact fun _ => rfl
    | succ fuel ih =>
        intro id
        have hbody : (m.amid r calls used).body id = m.body id := rfl
        rw [constructsIn, constructsIn, hbody]
        simp only [ih]
  cases v with
  | object id => exact hin _ id
  | _ => rfl

theorem amid_spares : Spares (fun _ => True) m (m.amid r calls used) := .of_heap rfl rfl rfl

theorem TellsInstance.amid {m : Machine} {v f : Value} (h : m.TellsInstance v f) :
    (m.amid r calls used).TellsInstance v f where
  judges id c hv hf := by
    obtain ⟨p, hp⟩ := h.judges id c hv hf
    exact ⟨p, (hp.spared (amid_spares m r calls used) trivial).1⟩
  shown id c hv hf := by
    rw [ancestors_amid]
    exact h.shown id c hv hf
  room := h.room

end Machine

namespace Machine

/-- Only objects inherit, and only from what objects have. -/
theorem objects_of_inherits {m : Machine} {v f : Value} (h : m.inherits v f = true) :
    (v.isObject && f.isObject) = true := by
  cases v with
  | object id =>
      cases f with
      | object c => rfl
      | _ => cases h
  | _ => cases h

end Machine

/-! ## Walks -/

namespace Eval

variable {I : Interp} {m : Machine} {id hd t p : Nat} {ps : List Nat} {operation : String} {d : Nat}

/-- What a handler that leaves an operation to the target has under its name. -/
theorem getRule_leaves (r : Reading) (receiver : Value)
    (h : m.leavesToTarget hd operation = true) :
    ∃ v, getRule r hd (Key.str operation) receiver I m = .ok v m ∧ v.isNullish = true := by
  unfold Machine.leavesToTarget at h
  unfold getRule
  rw [get_bind]
  -- There is nothing under the name, or data that is null or undefined; an accessor would have run.
  split at h
  next hfind =>
    rw [hfind]
    exact ⟨.undefined, rfl, rfl⟩
  next j pr hfind =>
    rw [hfind]
    dsimp only
    obtain ⟨v, hv, hnullish⟩ := (Option.any_eq_true _ _).1 h
    refine ⟨v, ?_, hnullish⟩
    rw [bind_of_ok (settleOwn_value hv)]
    rcases pr with ⟨content, e, c⟩
    cases content with
    | data _ _ =>
        cases hv
        rfl
    | accessor _ _ => cases hv
    | lazyPrototype => cases hv
  next => cases h

/-- A proxy whose handler leaves an operation to the target has no function for it. -/
theorem trap_leaves {c b : Bool} (hbody : m.body id = .proxy (some t) (some hd) c b)
    (h : m.leavesToTarget hd operation = true) (r : Reading) :
    trap (fun id k v => getRule r id k v) id operation I m = .ok (t, hd, none) m := by
  obtain ⟨v, hget, hnullish⟩ := getRule_leaves (I := I) r (.object hd) h
  have hbody' : body id I m = .ok (.proxy (some t) (some hd) c b) m := by
    rw [← hbody]
    rfl
  unfold trap
  rw [bind_of_ok hbody']
  dsimp only
  rw [bind_of_ok hget, if_pos hnullish]
  rfl

/-- The prototype that an object shows is found out without changing anything. -/
theorem proto_shown {depth : Nat} {p : Option Nat} (h : m.shownFrom depth id = some p) :
    (reading (depth + 1)).proto id I m = .ok p m := by
  -- By induction on the proxies that are seen through, each of which leaves it to its target.
  induction depth generalizing id with
  | zero =>
      rw [Machine.shownFrom] at h
      split at h
      next => cases h
      next hproxy =>
        cases h
        exact protoRule_eq (reading 0) hproxy
  | succ depth ih =>
      rw [Machine.shownFrom] at h
      split at h
      next t hd c b heq =>
        split at h
        next hleaves =>
          have hbody : body id I m = .ok (.proxy (some t) (some hd) c b) m := by
            rw [← heq]
            rfl
          have htrap := trap_leaves (I := I) heq hleaves (reading depth)
          have hrule : (reading (depth + 1 + 1)).proto id = protoRule (reading (depth + 1)) id := rfl
          rw [hrule, protoRule, bind_of_ok hbody]
          exact (bind_of_ok htrap).trans (ih h)
        next => cases h
      next => cases h
      next hproxy =>
        cases h
        exact protoRule_eq (reading (depth + 1)) hproxy

theorem protoOf_shown {p : Option Nat} (h : m.shownProto id = some p) : protoOf id I m = .ok p m :=
  proto_shown h

/-- A walk comes upon what is among the prototypes that are shown. -/
theorem hasPrototype_shown {fuel : Nat} (h : m.ancestorsFrom fuel id = some ps) :
    hasPrototype p fuel id I m = .ok (decide (p ∈ ps)) m := by
  induction fuel generalizing id ps with
  | zero =>
      cases h
      rfl
  | succ fuel ih =>
      rw [Machine.ancestorsFrom] at h
      rw [hasPrototype]
      split at h
      next => cases h
      next hnone =>
        cases h
        rw [bind_of_ok (protoOf_shown hnone)]
        rfl
      next q hq =>
        obtain ⟨qs, hqs, rfl⟩ := Option.map_eq_some_iff.1 h
        rw [bind_of_ok (protoOf_shown hq)]
        dsimp only
        -- The walk ends at the first prototype that is the one in question.
        by_cases hp : q = p
        · subst hp
          rw [if_pos (by simp), decide_eq_true List.mem_cons_self]
          rfl
        · rw [if_neg (by simpa using hp), ih hqs]
          simp [Ne.symm hp]

/-- Where prototypes tell it, being an instance is found out without changing anything. -/
theorem instanceOf_tells {v f : Value} (h : m.TellsInstance v f) (hv : v.isObject = true)
    (hf : f.isObject = true) (hused : m.stackUsed = 0) :
    instanceOf v f (interp Builtin.supply (d + 1)) m = .ok (m.inherits v f) m := by
  cases v with
  | object id =>
      cases f with
      | object c =>
          obtain ⟨p, hmakes⟩ := h.judges id c rfl rfl
          obtain ⟨ps, hps⟩ := Option.isSome_iff_exists.1 (h.shown id c rfl rfl)
          have hroom : RoomToCall m := by
            intro limit hlimit
            rw [hused, Nat.zero_add]
            exact h.room rfl rfl limit hlimit
          have hmember : m.prototypeMember c = some p := by
            unfold Machine.prototypeMember
            rw [hmakes.prototype]
            rfl
          have hinherits : m.inherits (.object id) (.object c) = decide (p ∈ ps) := by
            unfold Machine.inherits
            dsimp only
            rw [hps, hmember]
          rw [hinherits]
          -- The built-in judges: it walks along the prototypes that the object shows.
          refine instanceOf_walk hmakes hroom fun g r => ?_
          have hinside : (inside m g r).ancestors id = some ps := (m.ancestors_amid _ _ _ id).trans hps
          exact hasPrototype_shown hinside
      | _ => cases hf
  | _ => cases hv

end Eval

end ScriptHost
