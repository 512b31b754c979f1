import ScriptHost.Proofs.Labels
import ScriptHost.Proofs.ScriptThrows
import ScriptHost.Proofs.Surveying
/-!
# Contexts are made or leave nothing behind

A context is made of a realm in which everything is found that it needs, and keeps what was found.
Otherwise everything that was found until then is given back.  Either way nothing is pending, so the
next attempt goes like the first one.
-/

namespace ScriptHost

variable {σ : Type}

/-! ## Made or missed -/

theorem Reading.registered_eq (found : List Reading) :
    registered found = ((found.map kept).filter Value.isObject).map .value := by
  induction found with
  | nil => rfl
  | cons x found ih =>
      have hcons : registered (x :: found) = registered [x] ++ registered found :=
        registered_append [x] found
      have hone : registered [x] = (([x].map kept).filter Value.isObject).map .value := by
        obtain ⟨name, v⟩ := x
        cases v <;> rfl
      rw [hcons, ih, hone, ← List.map_append, ← List.filter_append, ← List.map_append]
      rfl

namespace Cache

/-- The values come in the order of their names. -/
theorem values_ofValues (globals : Value) {vs : List Value} (hvs : vs.length = names.length)
    (length size byteLength : Key) :
    (ofValues globals vs length size byteLength).values = globals :: vs := by
  have hvalues : (ofValues globals vs length size byteLength).values =
      globals :: (List.range names.length).map fun i => vs[i]?.getD .undefined := rfl
  rw [hvalues, ← hvs]
  refine congrArg (globals :: ·) (List.ext_getElem (by simp) fun i hi hi' => ?_)
  rw [List.getElem_map, List.getElem_range, List.getElem?_eq_getElem hi', Option.getD_some]

/-- The constructor of a kind is what was found under its name. -/
theorem elements_ofValues {globals : Value} {found : List Reading}
    (hnames : found.map Prod.fst = names) (length size byteLength : Key) (k : ElementKind) :
    ∃ v, (k.constructorName, v) ∈ found ∧
      (ofValues globals (found.map Reading.kept) length size byteLength).elements k =
        Reading.kept (k.constructorName, v) := by
  -- The constructors follow seven other names, in the order of the kinds.
  have hname : names[k.number + 7]? = some k.constructorName := by cases k <;> rfl
  rw [← hnames, List.getElem?_map] at hname
  obtain ⟨⟨name, v⟩, hfound, rfl⟩ := Option.map_eq_some_iff.1 hname
  refine ⟨v, List.mem_of_getElem? hfound, ?_⟩
  have helements : (ofValues globals (found.map Reading.kept) length size byteLength).elements k =
      (found.map Reading.kept)[k.number + 7]?.getD .undefined := rfl
  rw [helements, List.getElem?_map, hfound]
  rfl

end Cache

namespace Host

/-- A context was made of a realm in which everything was found that it needs. -/
structure Made (c : ContextId) (r : RealmId) (cache : Cache) (new : History σ)
    (h h' : Host (Recorded σ)) : Prop where
  names : (new.readings r cache.global).map Prod.fst = Cache.names
  fit : ∀ x ∈ new.readings r cache.global, Reading.fits x
  values : cache.values = cache.global :: (new.readings r cache.global).map Reading.kept
  elements : ∀ k, ∃ v, (ElementKind.constructorName k, v) ∈ new.readings r cache.global ∧
    cache.elements k = Reading.kept (k.constructorName, v)
  entries : cache.entries = Ref.value cache.global ::
    (Reading.registered (new.readings r cache.global) ++ cache.keys.map .key)
  /-- The context waits to give back just what it keeps, each reference once and in this order. -/
  contexts : h'.contexts = h.contexts.insert c ⟨some r, cache, cache.entries.toArray, false⟩
  held : ∀ ref, new.held ref = (cache.entries.flatMap Ref.counted).count ref

/-- No context was made of a realm because of what was under a name. -/
structure Missed (r : RealmId) (globals : Value) (name : String) (new : History σ)
    (h h' : Host (Recorded σ)) : Prop where
  names : (new.readings r globals).map Prod.fst <+: Cache.names
  missing : ∃ earlier v, new.readings r globals = earlier ++ [(name, v)] ∧
    (∀ x ∈ earlier, Reading.fits x) ∧ Reading.fits (name, v) = false
  contexts : h'.contexts = h.contexts
  /-- In the end the references that were registered are given back, each by itself and the oldest
  first, and then the realm. -/
  requests : ∃ lookups, .closeRealm r ∉ lookups ∧ new.requests = lookups ++
    ((Ref.value globals :: Reading.registered (new.readings r globals)).map (Ref.release r) ++
      [.closeRealm r])
  held : ∀ ref, new.held ref = 0

open Accounting

variable [Engine σ] {pending : σ → Option Value} {h : Host (Recorded σ)}

/-- A lookup that found everything makes a context. -/
theorem contextOf_made (c : ContextId) {r : RealmId} {h₁ : Host (Recorded σ)} {globals : Value}
    {refs : List Ref} {found : List Reading} {length size byteLength : Key}
    (hload : (load r).run.run #[] h = (.ok (.ok (Cache.ofValues globals (found.map Reading.kept)
      length size byteLength), (Ref.value globals :: refs).toArray), h₁))
    (hsurveyed : Surveyed r globals (gainOf (.value globals :: refs)) found h h₁)
    (hnames : found.map Prod.fst = Cache.names) (hfit : ∀ x ∈ found, Reading.fits x) :
    ∃ cache new h', contextOf c (some r) h = (.ok (), h') ∧ h'.engine = h₁.engine ∧
      h'.engine.history = new ++ h.engine.history ∧ cache.global = globals ∧
      Made c r cache new h h' := by
  let cache := Cache.ofValues globals (found.map Reading.kept) length size byteLength
  obtain ⟨hcontexts, new, hnew, rfl, -, hheld⟩ := hsurveyed
  -- What was registered is what the context keeps, in the same order.
  have hentries : Ref.value globals :: refs = cache.entries := by
    obtain ⟨x, table, h₂, hrun, -, htable⟩ := load_looks r h
    cases hload.symm.trans hrun
    exact htable _ rfl
  rw [hentries] at hload hheld
  have hcount : ((new.readings r globals).map Reading.kept).length = Cache.names.length := by
    rw [← hnames, List.length_map, List.length_map]
  have hvalues := Cache.values_ofValues globals hcount length size byteLength
  refine ⟨cache, new, { h₁ with
    contexts := h₁.contexts.insert c ⟨some r, cache, cache.entries.toArray, false⟩
    log := h₁.log.push (.contextCreated cache.entries.toArray.size) }, (bind_ok hload).trans rfl,
    rfl, hnew, rfl, ?_⟩
  constructor
  case names => exact hnames
  case fit => exact hfit
  case values => exact hvalues
  case elements => exact Cache.elements_ofValues hnames length size byteLength
  case entries =>
    rw [Cache.entries, hvalues, Reading.registered_eq]
    rfl
  case contexts => exact congrArg (fun X : Contexts => X.insert c _) hcontexts
  case held => exact hheld

/-- A lookup that missed something makes none, and gives back what it found. -/
theorem contextOf_missed (T : Throwing pending) (c : ContextId) {r : RealmId}
    {h₁ : Host (Recorded σ)} {globals : Value} {refs : List Ref} {found : List Reading}
    {name : String}
    (hload : (load r).run.run #[] h = (.ok (.error name, (Ref.value globals :: refs).toArray), h₁))
    (hsurveyed : Surveyed r globals (gainOf (.value globals :: refs)) found h h₁)
    (hclear₁ : pending h₁.engine.engine = none)
    (hloaded : Loaded globals (.error name) refs found) :
    ∃ new h', contextOf c (some r) h = (.error (.failed (.missingGlobal name)), h') ∧
      pending h'.engine.engine = none ∧ h'.engine.history = new ++ h.engine.history ∧
      Missed r globals name new h h' := by
  obtain ⟨hcontexts, new, hnew, hfound, hopen, hheld⟩ := hsurveyed
  obtain ⟨hrefs, hnames, hmissing⟩ := hloaded
  obtain ⟨h₂, hdrain, ⟨hcontexts₂, new₂, hnew₂, hfound₂, -, hheld₂⟩, hclear₂⟩ :=
    drain_surveyed T r globals (.value globals :: refs) hclear₁
  have hreleases : new₂.requests = (Ref.value globals :: refs).map (Ref.release r) := by
    obtain ⟨h₂', hdrain', -, -, -, hrequests⟩ :=
      drain_asks r (Ref.value globals :: refs).toArray h₁
    cases hdrain.symm.trans hdrain'
    rw [hnew₂, Asked.requests_append] at hrequests
    exact List.append_cancel_left hrequests
  -- The realm is closed last.
  let h₃ : Host (Recorded σ) := (ask (.closeRealm r) h₂).2
  let close : Exchange σ := h₂.engine.exchange (.closeRealm r)
  have hclose : h₃.engine.history = close :: h₂.engine.history := by
    rw [engine_ask, Recorded.answer_history]
  have hreadings : History.readings r globals (close :: (new₂ ++ new)) = found := by
    have hnone : History.readings r globals [close] = [] := rfl
    rw [← List.singleton_append, History.readings_append, History.readings_append, hfound,
      hfound₂, hnone, List.append_nil, List.append_nil]
  refine ⟨close :: (new₂ ++ new),
    { h₃ with log := h₃.log.push (.contextAborted (.missingGlobal name)) },
    (bind_ok hload).trans ((bind_ok hdrain).trans rfl), clear_ask T hclear₂ rfl, ?_, ?_⟩
  · rw [hclose, hnew₂, hnew, List.cons_append, List.append_assoc]
  constructor
  case names => exact hreadings ▸ hnames
  case missing => exact hreadings ▸ hmissing
  case contexts => exact (contexts_ask _ h₂).trans (hcontexts₂.trans hcontexts)
  case requests =>
    refine ⟨new.requests, hopen, ?_⟩
    rw [hreadings, ← List.singleton_append, Asked.requests_append, Asked.requests_append,
      hreleases, hrefs, List.append_assoc]
    rfl
  case held =>
    intro ref
    have hnone : History.held ref [close] = 0 := rfl
    rw [← List.singleton_append, History.held_add, History.held_add, hnone, hheld, hheld₂]
    omega

/-- Nothing is pending after an attempt, and either there is a context or there is nothing of it. -/
theorem contextOf_made_or_missed (T : Throwing pending) (F : Furnished σ) (c : ContextId)
    (r : RealmId) (hclear : pending h.engine.engine = none) {globals : Value}
    (hglobals : globals = (Engine.answer (.globalObject r) h.engine.engine).reply) :
    ∃ result new h', contextOf c (some r) h = (result, h') ∧
      h'.engine.history = new ++ h.engine.history ∧ pending h'.engine.engine = none ∧
      ((result = .ok () ∧ ∃ cache, cache.global = globals ∧ Made c r cache new h h') ∨
        ∃ name, result = .error (.failed (.missingGlobal name)) ∧
          Missed r globals name new h h') := by
  obtain ⟨x, refs, found, h₁, hload, hsurveyed, hclear₁, hloaded⟩ :=
    load_surveyed T F r hclear hglobals
  cases x with
  | ok cache =>
      obtain ⟨length, size, byteLength, ⟨-, hnames, hfit, -⟩, rfl⟩ := hloaded
      obtain ⟨cache, new, h', hrun, hengine, hnew, hglobal, hmade⟩ :=
        contextOf_made c hload hsurveyed hnames hfit
      refine ⟨.ok (), new, h', hrun, hnew, ?_, .inl ⟨rfl, cache, hglobal, hmade⟩⟩
      rwa [hengine]
  | error name =>
      obtain ⟨new, h', hrun, hclear', hnew, hmissed⟩ :=
        contextOf_missed T c hload hsurveyed hclear₁ hloaded
      exact ⟨_, new, h', hrun, hnew, hclear', .inr ⟨name, rfl, hmissed⟩⟩

/-! ## Every attempt -/

/-- Opening realms and making contexts leaves nothing pending. -/
theorem Tried.clear (T : Throwing pending) (F : Furnished σ) {h₀ : Host (Recorded σ)}
    (htried : Tried h₀ h) (hclear : pending h₀.engine.engine = none) :
    pending h.engine.engine = none := by
  -- An attempt is made when nothing is pending, and leaves nothing pending itself.
  induction htried with
  | start => exact hclear
  | opened _ hreply ih =>
      refine clear_ask T ih ?_
      rw [Recorded.answer_reply] at hreply
      rw [hreply]
      rfl
  | openedBare _ hreply ih =>
      refine clear_ask T ih ?_
      rw [Recorded.answer_reply] at hreply
      rw [hreply]
      rfl
  | handed c r _ ih =>
      obtain ⟨result, new, h', hrun, -, hclear', -⟩ := contextOf_made_or_missed T F c r ih rfl
      rw [hrun]
      exact hclear'

omit [Engine σ] in
/-- If a context was made, each name that it needs is bound to an object. -/
theorem Made.objects {c : ContextId} {r : RealmId} {cache : Cache} {new : History σ}
    {h h' : Host (Recorded σ)} (hmade : Made c r cache new h h') {name : String}
    (hname : name ∈ Cache.names) (hneeded : Cache.optional name = false) :
    ∃ id, (name, .object id) ∈ new.readings r cache.global := by
  rw [← hmade.names, List.mem_map] at hname
  obtain ⟨⟨name, v⟩, hread, rfl⟩ := hname
  have hobject : v.isObject = true := by simpa [Reading.fits, hneeded] using hmade.fit _ hread
  cases v with
  | object id => exact ⟨id, hread⟩
  | _ => cases hobject

omit [Engine σ] in
/-- If none was made, the name in question is needed and not bound to an object. -/
theorem Missed.not_object {r : RealmId} {globals : Value} {name : String} {new : History σ}
    {h h' : Host (Recorded σ)} (hmissed : Missed r globals name new h h') :
    name ∈ Cache.names ∧ Cache.optional name = false ∧
      ∀ id, (name, .object id) ∉ new.readings r globals := by
  obtain ⟨earlier, v, hread, -, hunfit⟩ := hmissed.missing
  obtain ⟨hobject, hneeded⟩ : v.isObject = false ∧ Cache.optional name = false := by
    simpa [Reading.fits] using hunfit
  have hmem : (name, v) ∈ new.readings r globals := by simp [hread]
  refine ⟨hmissed.names.subset (List.mem_map.2 ⟨_, hmem, rfl⟩), hneeded, fun id hid => ?_⟩
  -- No name is read twice, so there is one reading of it only.
  have hnodup : ((new.readings r globals).map Prod.fst).Nodup :=
    hmissed.names.sublist.nodup (by decide)
  have hsame : (name, v) = (name, .object id) := List.inj_on_of_nodup_map hnodup hmem hid rfl
  cases hsame
  cases hobject

/-- Whatever realms were opened and contexts made or missed before, an attempt succeeds if and only
if there are objects under all the names that are needed, and fails with the first name that is not
bound so otherwise.  A context that was made waits to give back one reference for each thing that it
keeps; if there is none, all that was registered for it was given back in order, and then the realm.
Nothing is pending in the end. -/
theorem creation_all_or_nothing (T : Throwing pending) (F : Furnished σ) {h₀ : Host (Recorded σ)}
    (hclear : pending h₀.engine.engine = none) (htried : Tried h₀ h) (c : ContextId) (r : RealmId) :
    let globals : Value := (Engine.answer (.globalObject r) h.engine.engine).reply
    ∃ result new h', contextOf c (some r) h = (result, h') ∧
      h'.engine.history = new ++ h.engine.history ∧ pending h'.engine.engine = none ∧
      (result = .ok () ↔ ∀ name ∈ Cache.names, Cache.optional name = false →
        ∃ id, (name, .object id) ∈ new.readings r globals) ∧
      (result = .ok () → ∃ cache, cache.global = globals ∧ Made c r cache new h h') ∧
      (result ≠ .ok () → ∃ name, result = .error (.failed (.missingGlobal name)) ∧
        Missed r globals name new h h') := by
  intro globals
  obtain ⟨result, new, h', hrun, hnew, hclear', houtcome⟩ :=
    contextOf_made_or_missed T F c r (htried.clear T F hclear) (Eq.refl globals)
  refine ⟨result, new, h', hrun, hnew, hclear', ?_⟩
  rcases houtcome with ⟨rfl, cache, hglobal, hmade⟩ | ⟨name, rfl, hmissed⟩
  · refine ⟨⟨fun _ name hname hneeded => ?_, fun _ => rfl⟩, fun _ => ⟨cache, hglobal, hmade⟩,
      fun hmissed => absurd rfl hmissed⟩
    exact hglobal ▸ hmade.objects hname hneeded
  · obtain ⟨hname, hneeded, hnone⟩ := hmissed.not_object
    refine ⟨⟨nofun, fun hall => ?_⟩, nofun, fun _ => ⟨name, rfl, hmissed⟩⟩
    obtain ⟨id, hid⟩ := hall name hname hneeded
    exact absurd hid (hnone id)

end Host

namespace ScriptEngine

/-- The engine of scripts has a global object in each realm, and keys are made of any text. -/
theorem furnished : Furnished ScriptEngine where
  global _ _ := nofun
  keys name _ _ _ := Key.isNull_ofText (Text.ofString name)

end ScriptEngine

namespace Host

/-- A host of two realms: a number is bound to the name of maps in one of them, and in the other one
there are no arrays of short floats. -/
def patchyHost : Host ScriptEngine :=
  let globals (v : String → Option Value) : Obj :=
    let members := Cache.names.filterMap fun name =>
      (v name).map fun v => (Key.str name, Property.plain v)
    { props := { members := members.toArray } }
  let numbered := globals fun name => some (if name == "Map" then .int 7 else .object 0)
  let shortless := globals fun name => if Cache.optional name then none else some (.object 1)
  { engine := { machine := { heap := #[numbered, shortless], realms := #[{}, { global := 1 }] } } }

/-- There is no context of the first realm, and then there is one of the second. -/
theorem creation_all_or_nothing_patchy :
    let h := patchyHost.recorded
    let h₁ := (contextOf 0 (some 0) h).2
    (contextOf 0 (some 0) h).1 = .error (.failed (.missingGlobal "Map")) ∧
      ∃ cache new, Made 1 1 cache new h₁ (contextOf 1 (some 1) h₁).2 ∧
        cache.elements .float16 = .undefined := by
  intro h h₁
  have hmissing : (contextOf 0 (some 0) h).1 = .error (.failed (.missingGlobal "Map")) := by
    decide +kernel
  have hok : (contextOf 1 (some 1) h₁).1 = .ok () := by decide +kernel
  have hshort : ((contextOf 1 (some 1) h₁).2.contexts.get? 1).map (·.cache.elements .float16) =
      some .undefined := by decide +kernel
  have htried : Tried h h₁ := .handed 0 0 .start
  obtain ⟨result, new, h₂, hrun, -, -, -, hmade, -⟩ :=
    creation_all_or_nothing ScriptEngine.throwing ScriptEngine.furnished rfl htried 1 1
  rw [hrun] at hok hshort ⊢
  obtain ⟨cache, -, hmade⟩ := hmade hok
  refine ⟨hmissing, cache, new, hmade, ?_⟩
  rw [hmade.contexts, Std.TreeMap.get?_eq_getElem?, Std.TreeMap.getElem?_insert_self] at hshort
  exact Option.some.inj hshort

end Host

end ScriptHost
