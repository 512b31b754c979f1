import ScriptHost.Client.Creation
import ScriptHost.Client.Thrown
import ScriptHost.Proofs.Handles
import ScriptHost.Proofs.Lifetimes
/-!
# What a context finds of its realm

The lookup of a context goes through the names of the globals in one order and ends at the first one
under which there is not what is needed.  Whatever it finds, nothing stays pending, and of the
references that it was given it did not give back just those that it registered.
-/

namespace ScriptHost

variable {σ : Type}

/-! ## Readings -/

/-- What is held after two histories in a row is what is held after each of them. -/
theorem History.held_add (ref : Ref) (new old : History σ) :
    held ref (new ++ old) = held ref new + held ref old := by
  induction new with
  | nil => simp [held]
  | cons x new ih =>
      rw [List.cons_append, held, held, ih]
      omega

theorem History.readings_append (r : RealmId) (object : Value) (new old : History σ) :
    readings r object (new ++ old) = old.readings r object ++ new.readings r object := by
  simp [readings]

theorem Reading.registered_append (found found' : List Reading) :
    registered (found ++ found') = registered found ++ registered found' := by
  simp [registered]

/-! ## One list of names -/

/-- What a context keeps, given the values in the order of their names. -/
def Cache.ofValues (globals : Value) (vs : List Value) (length size byteLength : Key) : Cache :=
  let slot (i : Nat) : Value := vs[i]?.getD .undefined
  { global := globals, array := slot 0, map := slot 1, set := slot 2, weakMap := slot 3,
    weakSet := slot 4, buffer := slot 5, symbol := slot 6, elements := fun k => slot (k.number + 7),
    length, size, byteLength }

namespace Host

variable [Engine σ]

/-- Looks up a global that a context needs; nothing is registered for one that is optional and
missing. -/
def neededGlobal (realm : RealmId) (globals : Value) (name : String) : Lookup σ Value := do
  match ← global? realm globals name with
  | some v => pure v
  | none => if Cache.optional name then pure .undefined else throw name

theorem requiredGlobal_eq {realm : RealmId} {globals : Value} {name : String}
    (hname : Cache.optional name = false) :
    (requiredGlobal realm globals name : Lookup σ Value) = neededGlobal realm globals name := by
  unfold requiredGlobal neededGlobal
  rw [hname]
  rfl

theorem kindConstructor_eq {realm : RealmId} {globals : Value} (k : ElementKind) :
    (kindConstructor realm globals k : Lookup σ Value) =
      neededGlobal realm globals k.constructorName := by
  by_cases hk : k = .float16
  · subst hk
    unfold kindConstructor neededGlobal
    rw [if_pos (by decide)]
    refine congrArg (global? realm globals _ >>= ·) (funext fun v => ?_)
    cases v <;> rfl
  · have hrequired : Cache.optional k.constructorName = false := by
      cases k <;> first | rfl | contradiction
    unfold kindConstructor
    rw [if_neg (by simpa using hk), requiredGlobal_eq hrequired]

/-- The lookup of a context goes through one list of names. -/
theorem load_eq (realm : RealmId) :
    (load realm : Lookup σ Cache) = (do
      let globals ← (ask (.globalObject realm) : Action σ Value)
      take (.value globals)
      let vs ← Cache.names.mapM (neededGlobal realm globals)
      let length ← requiredKey realm "length"
      let size ← requiredKey realm "size"
      let byteLength ← requiredKey realm "byteLength"
      pure (Cache.ofValues globals vs length size byteLength)) := by
  unfold load
  refine bind_congr fun (globals : Value) => bind_congr fun _ => ?_
  have hrequired : ∀ name ∈ Cache.requiredNames,
      (requiredGlobal realm globals name : Lookup σ Value) = neededGlobal realm globals name := by
    have hneeded : ∀ name ∈ Cache.requiredNames, Cache.optional name = false := by decide
    exact fun name hname => requiredGlobal_eq (hneeded name hname)
  have hkinds : (kindConstructor realm globals : ElementKind → Lookup σ Value) =
      neededGlobal realm globals ∘ ElementKind.constructorName := funext kindConstructor_eq
  -- Both sides are put into the form of one lookup after another.
  simp only [Cache.requiredNames, List.forall_mem_cons] at hrequired
  obtain ⟨hArray, hMap, hSet, hWeakMap, hWeakSet, hBuffer, hSymbol, -⟩ := hrequired
  simp only [hArray, hMap, hSet, hWeakMap, hWeakSet, hBuffer, hSymbol, hkinds, Cache.names,
    Cache.requiredNames, List.mapM_append, List.mapM_map, List.mapM_cons, List.mapM_nil, bind_assoc,
    pure_bind]
  rfl

end Host

/-! ## Surveys -/

namespace Accounting

open Host (Lookup)

variable [Engine σ] {α β : Type} {pending : σ → Option Value} {r : RealmId} {globals : Value}
  {h h₁ h₂ : Host (Recorded σ)}

/-- What asking an engine leaves of a host: something was found under names, and for each reference
there is a difference between how often it was given to the host and how often it was taken. -/
structure Surveyed (r : RealmId) (globals : Value) (gain : Ref → Int) (found : List Reading)
    (h h' : Host (Recorded σ)) : Prop where
  contexts : h'.contexts = h.contexts
  history : ∃ new : History σ, h'.engine.history = new ++ h.engine.history ∧
    new.readings r globals = found ∧ .closeRealm r ∉ new.requests ∧ ∀ ref, new.held ref = gain ref

/-- What is gained when references are registered. -/
def gainOf (refs : List Ref) (ref : Ref) : Int := (refs.flatMap Ref.counted).count ref

theorem gainOf_append (refs refs' : List Ref) (ref : Ref) :
    gainOf (refs ++ refs') ref = gainOf refs ref + gainOf refs' ref := by
  simp [gainOf]

namespace Surveyed

variable {gain gain' : Ref → Int} {found found' : List Reading}

omit [Engine σ] in
theorem refl (h : Host (Recorded σ)) : Surveyed r globals (gainOf []) [] h h :=
  ⟨rfl, [], rfl, rfl, by simp [History.requests], fun _ => rfl⟩

omit [Engine σ] in
theorem report {e : Event} (hsurveyed : Surveyed r globals gain found h h₁) :
    Surveyed r globals gain found h { h₁ with log := h₁.log.push e } :=
  ⟨hsurveyed.contexts, hsurveyed.history⟩

omit [Engine σ] in
theorem trans (h₁₂ : Surveyed r globals gain found h h₁)
    (h₂₃ : Surveyed r globals gain' found' h₁ h₂) :
    Surveyed r globals (fun ref => gain ref + gain' ref) (found ++ found') h h₂ where
  contexts := h₂₃.contexts.trans h₁₂.contexts
  history := by
    obtain ⟨new, hnew, hfound, hopen, hheld⟩ := h₁₂.history
    obtain ⟨new', hnew', hfound', hopen', hheld'⟩ := h₂₃.history
    refine ⟨new' ++ new, by rw [hnew', hnew, List.append_assoc], ?_, ?_, fun ref => ?_⟩
    · rw [History.readings_append, hfound, hfound']
    · rw [Host.Asked.requests_append, List.mem_append]
      exact not_or.2 ⟨hopen, hopen'⟩
    · rw [History.held_add, hheld, hheld']
      exact Int.add_comm _ _

omit [Engine σ] in
theorem gaining (hsurveyed : Surveyed r globals gain found h h₁)
    (hgain : ∀ ref, gain ref = gain' ref) :
    Surveyed r globals gain' found h h₁ := by
  rwa [← funext hgain]

/-- One request, with what its answer gives and tells. -/
theorem ask (globals : Value) {q : Request} (hopen : q ≠ .closeRealm r) (h : Host (Recorded σ)) :
    Surveyed r globals
      (fun ref => ((h.engine.exchange q).given.count ref : Int) - q.taken.count ref)
      ((h.engine.exchange q).reading? r globals).toList h (Host.ask q h).2 where
  contexts := Host.contexts_ask q h
  history := by
    refine ⟨[h.engine.exchange q], ?_, ?_, ?_, fun ref => ?_⟩
    · rw [Host.engine_ask, Recorded.answer_history, List.singleton_append]
    · cases hread : (h.engine.exchange q).reading? r globals <;> simp [History.readings, hread]
    · simpa [History.requests, Recorded.exchange] using hopen.symm
    · have htaken : (h.engine.exchange q).taken = q.taken := rfl
      rw [History.held, History.held, htaken]
      omega

end Surveyed

/-- An engine that answers throws nothing. -/
theorem clear_ask (T : Throwing pending) {q : Request} (hclear : pending h.engine.engine = none)
    (hreply : q.fails (Engine.answer q h.engine.engine).reply = false) :
    pending (Host.ask q h).2.engine.engine = none :=
  (congrArg (fun e : Recorded σ => pending e.engine) (Host.engine_ask q h)).trans
    (T.throws q h.engine.engine hclear hreply)

/-- A part of a lookup, told by what it results in, what it registers and what it finds.  It never
stops and leaves nothing pending, and it gives back what it does not register. -/
def Surveys (pending : σ → Option Value) (r : RealmId) (globals : Value) (m : Lookup (Recorded σ) α)
    (Q : Except String α → List Ref → List Reading → Prop) : Prop :=
  ∀ (known : List Ref) (h : Host (Recorded σ)), pending h.engine.engine = none →
    ∃ x refs found h', m.run.run known.toArray h = (.ok (x, (known ++ refs).toArray), h') ∧
      Surveyed r globals (gainOf refs) found h h' ∧ pending h'.engine.engine = none ∧
      Q x refs found

omit [Engine σ] in
theorem Surveys.pure {a : α} {Q : Except String α → List Ref → List Reading → Prop}
    (ha : Q (.ok a) [] []) : Surveys pending r globals (Pure.pure a) Q := by
  intro known h hclear
  refine ⟨.ok a, [], [], h, ?_, .refl h, hclear, ha⟩
  rw [List.append_nil]
  rfl

omit [Engine σ] in
theorem Surveys.throw {name : String} {Q : Except String α → List Ref → List Reading → Prop}
    (hname : Q (.error name) [] []) : Surveys pending r globals (throw name) Q := by
  intro known h hclear
  refine ⟨.error name, [], [], h, ?_, .refl h, hclear, hname⟩
  rw [List.append_nil]
  rfl

omit [Engine σ] in
theorem Surveys.bind {m : Lookup (Recorded σ) α} {f : α → Lookup (Recorded σ) β}
    {Q : Except String α → List Ref → List Reading → Prop}
    {Q' : Except String β → List Ref → List Reading → Prop} (hm : Surveys pending r globals m Q)
    (hstop : ∀ name refs found, Q (.error name) refs found → Q' (.error name) refs found)
    (hf : ∀ a refs found, Q (.ok a) refs found →
      Surveys pending r globals (f a) fun x refs' found' =>
        Q' x (refs ++ refs') (found ++ found')) :
    Surveys pending r globals (m >>= f) Q' := by
  intro known h hclear
  obtain ⟨x, refs, found, h₁, hrun, hsurveyed, hclear₁, hQ⟩ := hm known h hclear
  cases x with
  | error name =>
      refine ⟨.error name, refs, found, h₁, ?_, hsurveyed, hclear₁, hstop _ _ _ hQ⟩
      rw [run_bind, bind_ok hrun]
      rfl
  | ok a =>
      obtain ⟨x, refs', found', h₂, hrun', hsurveyed', hclear₂, hQ'⟩ :=
        hf a refs found hQ (known ++ refs) h₁ hclear₁
      refine ⟨x, refs ++ refs', found ++ found', h₂, ?_, ?_, hclear₂, hQ'⟩
      · rw [run_bind, bind_ok hrun, ← List.append_assoc]
        exact hrun'
      · exact (hsurveyed.trans hsurveyed').gaining fun ref => (gainOf_append refs refs' ref).symm

/-- A reference is asked for and registered. -/
theorem granted_surveys (T : Throwing pending) {q : Request} (ref : q.Reply → Ref)
    (hgiven : ∀ a, q.given a = (ref a).counted) (htaken : q.taken = [])
    (hreply : ∀ e : σ, q.fails (Engine.answer q e).reply = false)
    (hread : ∀ x : Exchange σ, x.request = q → x.reading? r globals = none)
    (hopen : q ≠ .closeRealm r) :
    Surveys pending r globals (do
      let a ← (Host.ask q : Action (Recorded σ) q.Reply)
      Host.take (ref a)
      Pure.pure a) fun x refs found => found = [] ∧ ∃ a, x = .ok a ∧ refs = [ref a] := by
  intro known h hclear
  let a : q.Reply := (Engine.answer q h.engine.engine).reply
  let h₁ : Host (Recorded σ) := (Host.ask q h).2
  have hask : Host.ask q h = (.ok a, h₁) := rfl
  have hsurveyed := Surveyed.ask globals hopen h
  rw [hread (h.engine.exchange q) rfl] at hsurveyed
  refine ⟨.ok a, [ref a], [],
    { h₁ with log := h₁.log.push (.releaseDeferred (known ++ [ref a]).toArray.size) }, ?_,
    hsurveyed.report.gaining fun x => ?_, clear_ask T hclear (hreply _), rfl, a, rfl, rfl⟩
  · rw [run_lift_bind, bind_ok hask, ← List.push_toArray]
    rfl
  · simp [gainOf, Exchange.given, Recorded.exchange, hgiven, htaken, a]

/-- A value is given back, and nothing is thrown. -/
theorem release_surveyed (T : Throwing pending) (v : Value) {gain : Ref → Int}
    {found : List Reading}
    (hsurveyed : Surveyed r globals (fun ref => gain ref + gainOf [.value v] ref) found h h₁)
    (hclear : pending h₁.engine.engine = none) :
    ∃ h₂, Host.ask (.release r (Ref.ofValue v)) h₁ = (.ok (), h₂) ∧
      Surveyed r globals gain found h h₂ ∧ pending h₂.engine.engine = none := by
  refine ⟨(Host.ask (.release r (Ref.ofValue v)) h₁).2, rfl, ?_, clear_ask T hclear rfl⟩
  have hreleased := hsurveyed.trans (Surveyed.ask globals (r := r)
    (q := .release r (Ref.ofValue v)) nofun h₁)
  have hnone : ((h₁.engine.exchange (.release r (Ref.ofValue v))).reading? r globals).toList = [] :=
    rfl
  rw [hnone, List.append_nil] at hreleased
  refine hreleased.gaining fun ref => ?_
  have htaken : Request.taken (.release r (Ref.ofValue v)) = Ref.ofValue v :=
    Ref.flatMap_counted_ofValue v
  have hgiven : (h₁.engine.exchange (.release r (Ref.ofValue v))).given = [] := rfl
  have hcancel : gainOf [.value v] ref = (Ref.ofValue v).count ref := by simp [gainOf, Ref.counted]
  rw [hgiven, htaken, hcancel, List.count_nil]
  omega

/-- What is under a name is read; something is pending afterwards only if reading it threw. -/
theorem getNamed_surveyed (T : Throwing pending) (r : RealmId) (globals : Value) (name : String)
    (hclear : pending h.engine.engine = none) :
    ∃ (v : Value) (h₁ : Host (Recorded σ)), Host.ask (.getNamed r globals name) h = (.ok v, h₁) ∧
      Surveyed r globals (gainOf [.value v]) [(name, v)] h h₁ ∧
      (v ≠ .exception → pending h₁.engine.engine = none) := by
  obtain ⟨v, hv⟩ : ∃ v : Value,
      (Engine.answer (.getNamed r globals name) h.engine.engine).reply = v := ⟨_, rfl⟩
  have hasked := Surveyed.ask globals (q := .getNamed r globals name) (r := r) (by simp) h
  have hfound : (h.engine.exchange (.getNamed r globals name)).reading? r globals =
      some (name, v) := by
    simp [Exchange.reading?, Recorded.exchange, hv]
  rw [hfound] at hasked
  refine ⟨v, (Host.ask (.getNamed r globals name) h).2, by rw [← hv]; rfl,
    hasked.gaining fun ref => ?_, fun hreal => clear_ask T hclear ?_⟩
  · simp [gainOf, Exchange.given, Recorded.exchange, hv, Request.given, Request.taken, Ref.counted]
  · rw [hv]
    exact beq_eq_false_iff_ne.2 hreal

/-- What was thrown is taken, so that nothing is pending. -/
theorem takeException_surveyed (T : Throwing pending) (r : RealmId) (globals : Value)
    (h : Host (Recorded σ)) :
    ∃ (e : Value) (h₁ : Host (Recorded σ)), Host.ask (.takeException r) h = (.ok e, h₁) ∧
      Surveyed r globals (gainOf [.value e]) [] h h₁ ∧ pending h₁.engine.engine = none := by
  obtain ⟨e, he⟩ : ∃ e : Value, (Engine.answer (.takeException r) h.engine.engine).reply = e :=
    ⟨_, rfl⟩
  have hasked := Surveyed.ask globals (q := .takeException r) (r := r) (by simp) h
  refine ⟨e, (Host.ask (.takeException r) h).2, by rw [← he]; rfl,
    hasked.gaining fun ref => ?_, ?_⟩
  · simp [gainOf, Exchange.given, Recorded.exchange, he, Request.given, Request.taken, Ref.counted]
  · exact (congrArg (fun e : Recorded σ => pending e.engine) (Host.engine_ask _ h)).trans
      (T.take_clears r h.engine.engine)

/-- Whatever is under a name, an object is registered, and everything else is given back. -/
theorem global_surveys (T : Throwing pending) (name : String) :
    Surveys pending r globals (Host.global? r globals name) fun x refs found => ∃ v,
      found = [(name, v)] ∧ refs = Reading.registered found ∧
      x = .ok (if v.isObject then some v else none) := by
  intro known h hclear
  obtain ⟨v, h₁, hask, hread, hreal⟩ := getNamed_surveyed T r globals name hclear
  unfold Host.global?
  rw [run_lift_bind, bind_ok hask]
  -- What is thrown is taken and given back, and so is whatever else is no object.
  cases v with
  | object id =>
      let registered : Event := .releaseDeferred (known.toArray.push (.value (.object id))).size
      refine ⟨.ok (some (.object id)), [.value (.object id)], [(name, .object id)],
        { h₁ with log := h₁.log.push registered }, ?_, hread.report, hreal (by simp), .object id,
        rfl, rfl, rfl⟩
      rw [← List.push_toArray]
      rfl
  | exception =>
      obtain ⟨e, h₂, htake, htaken, hcleared⟩ := takeException_surveyed T r globals h₁
      have hboth : Surveyed r globals (fun ref => gainOf [] ref + gainOf [.value e] ref)
          [(name, .exception)] h h₂ := hread.trans htaken
      obtain ⟨h₃, hrelease, hreleased, hclear₃⟩ := release_surveyed T e hboth hcleared
      refine ⟨.ok none, [], [(name, .exception)], h₃, ?_, hreleased, hclear₃, .exception, rfl, rfl,
        rfl⟩
      rw [List.append_nil, run_lift_bind, bind_ok htake]
      exact (congrFun (run_lift_bind _ _ known.toArray) h₂).trans (bind_ok hrelease)
  | _ =>
      have hkept : Surveyed r globals (fun ref => gainOf [] ref + gainOf [.value _] ref) _ h h₁ :=
        hread.gaining fun ref => (Int.zero_add _).symm
      obtain ⟨h₂, hrelease, hreleased, hclear₂⟩ := release_surveyed T _ hkept (hreal (by simp))
      refine ⟨.ok none, [], _, h₂, ?_, hreleased, hclear₂, _, rfl, rfl, rfl⟩
      rw [List.append_nil]
      exact (congrFun (run_lift_bind _ _ known.toArray) h₁).trans (bind_ok hrelease)

/-- What a lookup has found when it needs these names: either everything, or the name under which
there is not what is needed is the last one that was read. -/
def Found (names : List String) (x : Except String (List Value)) (refs : List Ref)
    (found : List Reading) : Prop :=
  refs = Reading.registered found ∧
    match x with
    | .ok vs => found.map Prod.fst = names ∧ (∀ y ∈ found, Reading.fits y) ∧
        vs = found.map Reading.kept
    | .error name => found.map Prod.fst <+: names ∧ ∃ earlier v, found = earlier ++ [(name, v)] ∧
        (∀ y ∈ earlier, Reading.fits y) ∧ Reading.fits (name, v) = false

theorem neededGlobal_surveys (T : Throwing pending) (name : String) :
    Surveys pending r globals (Host.neededGlobal r globals name) fun x refs found =>
      Found [name] (x.map fun v => [v]) refs found := by
  -- There is an object, or there is none and it is not needed, or this is where the lookup ends.
  refine (global_surveys T name).bind ?_ ?_
  · rintro _ refs found ⟨v, -, -, hx⟩
    cases hx
  rintro _ refs found ⟨v, rfl, rfl, hx⟩
  by_cases hv : v.isObject
  · rw [if_pos hv] at hx
    cases hx
    refine Surveys.pure ⟨List.append_nil _, rfl, ?_, ?_⟩
    · simp [Reading.fits, hv]
    · simp [Reading.kept, hv]
  · rw [if_neg hv] at hx
    cases hx
    by_cases hname : Cache.optional name
    · dsimp only
      rw [if_pos hname]
      refine Surveys.pure ⟨List.append_nil _, rfl, ?_, ?_⟩
      · simp [Reading.fits, hname]
      · simp [Reading.kept, hv]
    · dsimp only
      rw [if_neg hname]
      refine Surveys.throw ⟨List.append_nil _, List.prefix_rfl, [], v, rfl, by simp, ?_⟩
      simp [Reading.fits, hv, hname]

/-- The names are read in their order, up to the first one under which there is not what is
needed. -/
theorem neededGlobals_surveys (T : Throwing pending) (names : List String) :
    Surveys pending r globals (names.mapM (Host.neededGlobal r globals)) (Found names) := by
  -- What was found so far stands in front of what is found under the other names.
  induction names with
  | nil => exact Surveys.pure ⟨rfl, rfl, by simp, rfl⟩
  | cons name names ih =>
      rw [List.mapM_cons]
      refine (neededGlobal_surveys T name).bind ?_ ?_
      · rintro missing refs found ⟨hrefs, hnames, hmissing⟩
        exact ⟨hrefs, hnames.trans (List.prefix_append [name] names), hmissing⟩
      rintro v refs found ⟨hrefs, hname, hfit, hv⟩
      refine ih.bind ?_ ?_
      · rintro missing refs' found' ⟨hrefs', hnames, earlier, w, hfound, hfits, hmissing⟩
        refine ⟨?_, ?_, found ++ earlier, w, ?_, ?_, hmissing⟩
        · rw [hrefs, hrefs', Reading.registered_append]
        · rw [List.map_append, hname]
          exact List.prefix_append_right_inj [name] |>.2 hnames
        · rw [hfound, List.append_assoc]
        · exact List.forall_mem_append.2 ⟨hfit, hfits⟩
      rintro vs refs' found' ⟨hrefs', hnames, hfits, hvs⟩
      refine Surveys.pure ⟨?_, ?_, ?_, ?_⟩
      · rw [List.append_nil, List.append_nil, hrefs, hrefs', Reading.registered_append]
      · rw [List.append_nil, List.map_append, hname, hnames]
        rfl
      · rw [List.append_nil]
        exact List.forall_mem_append.2 ⟨hfit, hfits⟩
      · rw [List.append_nil, List.map_append, ← hv, hvs]
        rfl

/-- A key that a context keeps is asked for and registered. -/
theorem requiredKey_surveys (T : Throwing pending) (F : Furnished σ) {name : String}
    (hname : name ∈ Cache.keyNames) :
    Surveys pending r globals (Host.requiredKey r name) fun x refs found =>
      found = [] ∧ ∃ k : Key, x = .ok k ∧ refs = [.key k] :=
  granted_surveys T (q := .keyOfText r name) (fun k : Key => Ref.key k) (fun _ => rfl) rfl
    (F.keys name hname r) (by rintro ⟨_, _, _, _⟩ ⟨⟩; rfl) nofun

/-- What the lookup of a context comes to, after the global object is registered. -/
def Loaded (globals : Value) (x : Except String Cache) (refs : List Ref) (found : List Reading) :
    Prop :=
  match x with
  | .ok cache => ∃ length size byteLength,
      Found Cache.names (.ok (found.map Reading.kept)) (Reading.registered found) found ∧
      cache = Cache.ofValues globals (found.map Reading.kept) length size byteLength
  | .error name => Found Cache.names (.error name) refs found

/-- The names are read, and if there is everything, the keys are asked for. -/
theorem rest_surveys (T : Throwing pending) (F : Furnished σ) (r : RealmId) (globals : Value) :
    Surveys pending r globals (do
      let vs ← Cache.names.mapM (Host.neededGlobal r globals)
      let length ← Host.requiredKey r "length"
      let size ← Host.requiredKey r "size"
      let byteLength ← Host.requiredKey r "byteLength"
      Pure.pure (Cache.ofValues globals vs length size byteLength)) (Loaded globals) := by
  refine (neededGlobals_surveys T Cache.names).bind (fun _ _ _ hmissing => hmissing) ?_
  rintro vs refs found ⟨hrefs, hnames, hfit, hvs⟩
  -- A key is always there, so from here on nothing is missing and nothing more is found.
  have hkey : ∀ name ∈ Cache.keyNames, ∀ {f : Key → Lookup (Recorded σ) Cache} {Q},
      (∀ k refs, Surveys pending r globals (f k) fun x refs' found' => Q x (refs ++ refs') found') →
      Surveys pending r globals (Host.requiredKey r name >>= f) Q := by
    intro name hname f Q hf
    refine (requiredKey_surveys T F hname).bind ?_ ?_
    · rintro _ _ _ ⟨-, k, hk, -⟩
      cases hk
    · rintro k refs found ⟨rfl, -, -, rfl⟩
      exact hf k _
  refine hkey "length" (by decide) fun length _ => ?_
  refine hkey "size" (by decide) fun size _ => ?_
  refine hkey "byteLength" (by decide) fun byteLength _ => Surveys.pure ?_
  have hsame : found ++ [] = found := List.append_nil found
  rw [hsame]
  exact ⟨length, size, byteLength, ⟨rfl, hnames, hfit, rfl⟩, by rw [hvs]⟩

/-- Everything that a context looks up, from a host in which nothing is pending. -/
theorem load_surveyed (T : Throwing pending) (F : Furnished σ) (r : RealmId)
    (hclear : pending h.engine.engine = none) {globals : Value}
    (hglobals : globals = (Engine.answer (.globalObject r) h.engine.engine).reply) :
    ∃ x refs found h',
      (Host.load r).run.run #[] h = (.ok (x, (.value globals :: refs).toArray), h') ∧
      Surveyed r globals (gainOf (.value globals :: refs)) found h h' ∧
      pending h'.engine.engine = none ∧ Loaded globals x refs found := by
  let h₁ : Host (Recorded σ) := (Host.ask (.globalObject r) h).2
  let h₂ : Host (Recorded σ) := { h₁ with log := h₁.log.push (.releaseDeferred 1) }
  have hask : Host.ask (.globalObject r) h = (.ok globals, h₁) := by
    rw [hglobals]
    rfl
  -- The engine always has a global object, so the survey begins with nothing pending.
  have hreal : globals ≠ .exception := hglobals ▸ F.global r h.engine.engine
  have hasked : Surveyed r globals (gainOf [.value globals]) [] h h₂ := by
    refine (Surveyed.ask globals (q := .globalObject r) nofun h).report.gaining fun ref => ?_
    simp [gainOf, Exchange.given, Recorded.exchange, ← hglobals, Request.given, Request.taken,
      Ref.counted]
  have hclear₂ : pending h₂.engine.engine = none := by
    refine clear_ask T hclear ?_
    rw [← hglobals]
    exact beq_eq_false_iff_ne.2 hreal
  obtain ⟨x, refs, found, h', hrun, hsurveyed, hclear', hloaded⟩ :=
    rest_surveys T F r globals [.value globals] h₂ hclear₂
  refine ⟨x, refs, found, h', ?_, ?_, hclear', hloaded⟩
  · rw [Host.load_eq, run_lift_bind, bind_ok hask]
    exact hrun
  · exact (hasked.trans hsurveyed).gaining fun ref => (gainOf_append [.value globals] refs ref).symm

/-! ## Giving back -/

theorem taken_release (x : Ref) : (x.release r).taken = x.counted := by
  cases x with
  | value v => exact Ref.flatMap_counted_ofValue v
  | key k => exact List.flatMap_singleton Ref.counted (.key k)

/-- References are given back one by one, and nothing is thrown. -/
theorem releases_surveyed (T : Throwing pending) (r : RealmId) (globals : Value)
    (refs : List Ref) (h : Host (Recorded σ)) (hclear : pending h.engine.engine = none) :
    ∃ h', refs.forM (Host.handBack r) h =(.ok (), h') ∧
      Surveyed r globals (fun ref => -gainOf refs ref) [] h h' ∧
      pending h'.engine.engine = none := by
  induction refs generalizing h with
  | nil => exact ⟨h, rfl, (Surveyed.refl h).gaining fun _ => rfl, hclear⟩
  | cons x refs ih =>
      have hopen : x.release r ≠ .closeRealm r := by cases x <;> exact nofun
      have hclear₁ : pending (Host.ask (x.release r) h).2.engine.engine = none :=
        clear_ask T hclear (by cases x <;> rfl)
      obtain ⟨h', hrun, hsurveyed, hclear'⟩ := ih (Host.ask (x.release r) h).2 hclear₁
      have hasked := Surveyed.ask globals hopen h
      have hnone : ((h.engine.exchange (x.release r)).reading? r globals).toList = [] := by
        cases x <;> rfl
      have hgiven : (h.engine.exchange (x.release r)).given = [] := by cases x <;> rfl
      rw [hnone, hgiven, taken_release] at hasked
      refine ⟨h', (bind_ok (Host.handBack_run r x h)).trans hrun,
        (hasked.trans hsurveyed).gaining fun ref => ?_, hclear'⟩
      have hcons : gainOf (x :: refs) ref = x.counted.count ref + gainOf refs ref := by
        simp [gainOf]
      rw [hcons, List.count_nil]
      omega

theorem drain_surveyed (T : Throwing pending) (r : RealmId) (globals : Value) (table : List Ref)
    (hclear : pending h.engine.engine = none) :
    ∃ h', Host.drain r table.toArray h = (.ok (), h') ∧
      Surveyed r globals (fun ref => -gainOf table ref) [] h h' ∧
      pending h'.engine.engine = none := by
  obtain ⟨h', hrun, hsurveyed, hclear'⟩ := releases_surveyed T r globals table h hclear
  refine ⟨{ h' with log := h'.log.push (.releasesDrained table.length) }, ?_, hsurveyed.report,
    hclear'⟩
  rw [Host.drain_eq]
  exact (bind_ok hrun).trans rfl

end Accounting

end ScriptHost
