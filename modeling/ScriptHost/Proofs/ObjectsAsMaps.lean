import ScriptHost.Proofs.Keeping
/-!
# Objects as ordered maps

A client that makes an object and then reads, writes, asks for and deletes properties of it is told
what an ordered map would tell, whichever way it says what property it means.
-/

namespace ScriptHost

namespace Host

open Accounting (bind_ok live_ok ask_eq tryCatch_ok)
open ScriptEngine

variable {c : ContextId} {r : RealmId} {id : Nat} {ls : List Label} {l : Label}
  {m m' m'' : OrderedMap Label Value} {n n' n'' : Nat} {α β : Type}

/-- A host with a live context whose engine keeps a plain object. -/
structure Keeps (s : Host ScriptEngine) (c : ContextId) (r : RealmId) (id : Nat) (ls : List Label)
    (m : OrderedMap Label Value) (n : Nat) : Prop where
  engine : s.engine.Keeps id ls m n
  live : (Contexts.entry s.contexts c).realm = some r

/-- An action that comes to its end in a host that keeps a plain object, and what is kept then. -/
def Gives (c : ContextId) (r : RealmId) (id : Nat) (ls : List Label) (m : OrderedMap Label Value)
    (n : Nat) (x : Action ScriptEngine α) (a : α) (m' : OrderedMap Label Value) (n' : Nat) : Prop :=
  ∀ s, Keeps s c r id ls m n → ∃ s', x s = (.ok a, s') ∧ Keeps s' c r id ls m' n'

/-! ## Writing under a name -/

theorem set_text {σ : Type} [Engine σ] (h v : Handle) (s : String) :
    (Host.set h (.text s) v : Action σ Unit) = (do
      let k ← tryCatch (newKey h.context s) fun e => do
        drop v
        throw e
      holdingKey k fun k => setKey h k.key v) := rfl

theorem set_index {σ : Type} [Engine σ] (h v : Handle) (i : Int) :
    (Host.set h (.index i) v : Action σ Unit) = (do
      let k ← tryCatch (indexKey h i) fun e => do
        drop v
        throw e
      holdingKey k fun k => setKey h k.key v) := rfl

theorem set_key {σ : Type} [Engine σ] (h v : Handle) (k : KeyHandle) :
    (Host.set h (.key k) v : Action σ Unit) = setKey h k.key v := rfl

namespace Gives

theorem pure {a : α} : Gives c r id ls m n (Pure.pure a) a m n := fun s h => ⟨s, rfl, h⟩

theorem bind {x : Action ScriptEngine α} {f : α → Action ScriptEngine β} {a : α} {b : β}
    (hx : Gives c r id ls m n x a m' n') (hf : Gives c r id ls m' n' (f a) b m'' n'') :
    Gives c r id ls m n (x >>= f) b m'' n'' := by
  intro s h
  obtain ⟨s₁, hrun, h₁⟩ := hx s h
  rw [bind_ok hrun]
  exact hf s₁ h₁

theorem live : Gives c r id ls m n (Host.live c) r m n := fun s h => ⟨s, live_ok h.live, h⟩

theorem ask {q : Request} {a : q.Reply} (hq : Answered id ls m n q a m' n') :
    Gives c r id ls m n (Host.ask q) a m' n' := by
  intro s h
  obtain ⟨s', hrun, hcontexts, hengine, -⟩ := ask_eq q s
  obtain ⟨hreply, hkeeps⟩ := hq s.engine h.engine
  refine ⟨s', by rw [hrun, hreply], ?_, ?_⟩
  · rw [hengine]
    exact hkeeps
  · rw [hcontexts]
    exact h.live

theorem tryCatch {x : Action ScriptEngine α} {f : Stop → Action ScriptEngine α} {a : α}
    (hx : Gives c r id ls m n x a m' n') :
    Gives c r id ls m n (MonadExcept.tryCatch x f) a m' n' := by
  intro s h
  obtain ⟨s', hrun, h'⟩ := hx s h
  exact ⟨s', tryCatch_ok hrun, h'⟩

theorem ensuring {x : Action ScriptEngine α} {last : Action ScriptEngine Unit} {a : α}
    (hx : Gives c r id ls m n x a m' n') (hlast : Gives c r id ls m' n' last () m'' n'') :
    Gives c r id ls m n (Host.ensuring x last) a m'' n'' :=
  hx.tryCatch.bind (hlast.bind pure)

/-- A request that is made in the live context. -/
theorem asked {q : RealmId → Request} {f : ∀ r, (q r).Reply → Action ScriptEngine α}
    {a : (q r).Reply} {b : α} (hq : Answered id ls m n (q r) a m' n')
    (hf : Gives c r id ls m' n' (f r a) b m'' n'') :
    Gives c r id ls m n (do
      let r ← Host.live c
      let a ← Host.ask (q r)
      f r a) b m'' n'' :=
  live.bind ((ask hq).bind hf)

/-! ### Handles -/

theorem dropKey (hn : 0 < n) (k : Key) : Gives c r id ls m n (Host.dropKey ⟨c, k⟩) () m n := by
  unfold Host.dropKey
  split
  · exact live.bind (ask (releaseKey_answered hn k))
  · exact pure

theorem dropText (hn : 0 < n) (t : Text) :
    Gives c r id ls m n (Host.drop ⟨c, .string t⟩) () m n :=
  live.bind (ask (releaseText_answered hn t))

theorem check {v : Value} (hv : v ≠ .exception) :
    Gives c r id ls m n (Host.check c v) ⟨c, v⟩ m n := by
  unfold Host.check
  rw [if_neg (by simpa using hv)]
  exact pure

theorem requireObject (operation : String) :
    Gives c r id ls m n (Host.requireObject operation ⟨c, .object id⟩) () m n := pure

theorem newKey (hn : 0 < n) (s : String) :
    Gives c r id ls m n (Host.newKey c s) ⟨c, (Label.text (.ofString s)).key⟩ m n :=
  asked (keyOfText_answered hn s) pure

theorem newIndexKey (hn : 0 < n) (i : UInt32) :
    Gives c r id ls m n (Host.newIndexKey c i) ⟨c, (Label.text (Key.natText i.toNat)).key⟩ m n := by
  have hkey : Key.ofNat i.toNat = (Label.text (Key.natText i.toNat)).key :=
    Key.ofNat_eq_ofText i.toNat
  rw [← hkey]
  exact asked (keyOfIndex_answered hn i) pure

/-- A key is made for an index that is in range. -/
theorem indexKey (hn : 0 < n) {i : Nat} (hi : i ≤ maxIndex) :
    Gives c r id ls m n (Host.indexKey ⟨c, .object id⟩ i) ⟨c, (Label.text (Key.natText i)).key⟩ m
      n := by
  have hsmall : i < 2 ^ 32 := by
    have hmax : maxIndex < 2 ^ 32 := by decide
    omega
  have hback : (UInt32.ofNat i).toNat = i := UInt32.toNat_ofNat_of_lt' hsmall
  have hmade : Gives c r id ls m n (Host.newIndexKey c (UInt32.ofNat i))
      ⟨c, (Label.text (Key.natText (UInt32.ofNat i).toNat)).key⟩ m n := newIndexKey hn _
  unfold Host.indexKey
  rw [if_pos ⟨Int.natCast_nonneg i, hi⟩, Int.toNat_natCast]
  rwa [hback] at hmade

/-- What can be done with the key for a label can be done by any path to it. -/
theorem withKey (hn : 0 < n) (hn' : 0 < n') (p : Client.Path l) {x : Key → Action ScriptEngine α}
    {a : α} (hx : Gives c r id ls m n (x l.key) a m' n') :
    Gives c r id ls m n (Host.withKey ⟨c, .object id⟩ p.name x) a m' n' := by
  have hheld : Gives c r id ls m n (Host.holdingKey ⟨c, l.key⟩ fun k => x k.key) a m' n' :=
    ensuring hx (dropKey hn' l.key)
  cases p with
  | text s => exact (newKey hn s).bind hheld
  | index i hi => exact (indexKey hn hi).bind hheld
  | key k hk =>
      have hkey : Host.withKey ⟨c, .object id⟩ (.key k) x = x k.key := rfl
      rw [Client.Path.name, hkey, hk.key_eq]
      exact hx

/-! ### Texts of keys -/

theorem mapM {γ : Type} {f : α → Action ScriptEngine β} {g : γ → α} {b : γ → β} {l : List γ}
    (hf : ∀ x, Gives c r id ls m n (f (g x)) (b x) m n) :
    Gives c r id ls m n ((l.map g).mapM f) (l.map b) m n := by
  induction l with
  | nil => exact pure
  | cons x l ih =>
      rw [List.map_cons, List.mapM_cons, List.map_cons]
      exact (hf x).bind (ih.bind pure)

theorem dropKeys (hn : 0 < n) (ks : List Key) :
    Gives c r id ls m n (Host.dropKeys (ks.map (⟨c, ·⟩))) () m n := by
  induction ks with
  | nil => exact pure
  | cons k ks ih => exact (dropKey hn k).bind ih

theorem toText (hn : 0 < n) (t : Text) :
    Gives c r id ls m n (Host.toText ⟨c, .string t⟩) t.toHostString m n :=
  asked (toText_answered hn t) pure

theorem keyText (hn : 0 < n) (t : Text) :
    Gives c r id ls m n (Host.keyText ⟨c, Key.ofText t⟩) t.toHostString m n :=
  asked (textOfKey_answered hn t)
    ((check (v := .string t) nofun).bind (ensuring (toText hn t) (dropText hn t)))

/-! ### Accesses -/

theorem get (hn : 0 < n) (hl : l ∈ ls) (hm : m.lookup l ≠ some .exception) (p : Client.Path l) :
    Gives c r id ls m n (Host.get ⟨c, .object id⟩ p.name) ⟨c, (m.lookup l).getD .undefined⟩ m
      n := by
  have hvalue : (m.lookup l).getD .undefined ≠ .exception := by
    cases hv : m.lookup l with
    | none => exact nofun
    | some v =>
        rw [hv] at hm
        simpa using hm
  exact withKey hn hn p (asked (get_answered hn hl) (check hvalue))

theorem has (hn : 0 < n) (hl : l ∈ ls) (p : Client.Path l) :
    Gives c r id ls m n (Host.has ⟨c, .object id⟩ p.name) (m.lookup l).isSome m n :=
  withKey hn hn p ((requireObject _).bind (asked (has_answered hn hl) pure))

theorem delete (hn : 0 < n) (p : Client.Path l) :
    Gives c r id ls m n (Host.delete ⟨c, .object id⟩ p.name) (m.lookup l).isSome (m.erase l) n := by
  refine withKey hn hn p ((requireObject _).bind (asked (hasOwn_answered hn l) (pure.bind ?_)))
  -- The engine is told to delete only what the object has.
  cases hv : m.lookup l with
  | some v => exact asked (delete_answered hn hv) pure
  | none =>
      rw [OrderedMap.erase_of_none hv]
      exact pure

theorem setKey (hn' : 0 < n') (hl : l ∈ ls) (v : Handle)
    (hcount : n' ≤ n - (Ref.ofValue v.value).count (.value (.object id))) :
    Gives c r id ls m n (Host.setKey ⟨c, .object id⟩ l.key v) () (m.set l v.value) n' :=
  ((requireObject _).bind live).tryCatch.bind
    ((ask (set_answered hl v.value hcount hn')).bind (pure.bind pure))

/-- A value is written; of the object itself there has to be a reference to spare. -/
theorem set (hn : 0 < n) (hn' : 0 < n') (hl : l ∈ ls) (p : Client.Path l) (v : Handle)
    (hcount : n' ≤ n - (Ref.ofValue v.value).count (.value (.object id))) :
    Gives c r id ls m n (Host.set ⟨c, .object id⟩ p.name v) () (m.set l v.value) n' := by
  have hwrite : Gives c r id ls m n (Host.holdingKey ⟨c, l.key⟩ fun k =>
      Host.setKey ⟨c, .object id⟩ k.key v) () (m.set l v.value) n' :=
    ensuring (setKey hn' hl v hcount) (dropKey hn' l.key)
  -- Under a text or an index a key is made, held while the value is written, and given back.
  cases p with
  | text s =>
      rw [Client.Path.name, set_text]
      exact (newKey hn s).tryCatch.bind hwrite
  | index i hi =>
      rw [Client.Path.name, set_index]
      exact (indexKey hn hi).tryCatch.bind hwrite
  | key k hk =>
      rw [Client.Path.name, set_key, hk.key_eq]
      exact setKey hn' hl v hcount

theorem keys (hn : 0 < n) : Gives c r id ls m n (Host.keys ⟨c, .object id⟩)
    (m.listing.map Text.toHostString) m n := by
  have hown : Gives c r id ls m n (Host.ownKeys ⟨c, .object id⟩ .enumerableStrings)
      ((m.listing.map Key.ofText).map (⟨c, ·⟩)) m n :=
    (requireObject _).bind (asked (ownKeys_answered hn) (pure.bind pure))
  have htexts : Gives c r id ls m n
      (((m.listing.map Key.ofText).map (⟨c, ·⟩ : Key → KeyHandle)).mapM Host.keyText)
      (m.listing.map Text.toHostString) m n := by
    rw [List.map_map]
    exact mapM fun t => keyText hn t
  exact hown.bind (ensuring htexts (dropKeys hn _))

theorem makeKey (hn : 0 < n) (k : Client.KeySource l) :
    Gives c r id ls m n (k.run c) ⟨c, l.key⟩ m n := by
  cases k with
  | text s => exact newKey hn s
  | index i => exact newIndexKey hn i
  | value v hv => exact asked (keyOfValue_answered hn hv) (pure.bind pure)

/-- A value is passed on, of the object itself a second reference. -/
theorem write (hl : l ∈ ls) (p : Client.Path l) (v : Handle)
    (hv : v.value ≠ .exception ∧ v.value ≠ .uninitialized) :
    Gives c r id ls m 1 ((Client.Access.set p v hv).run ⟨c, .object id⟩) .done
      (m.set l v.value) 1 := by
  by_cases hself : v.value = .object id
  · -- The second reference is what the write takes, so that the object is still held after it.
    have hcount : 1 ≤ 1 + 1 - (Ref.ofValue (.object id)).count (.value (.object id)) := by
      have htaken : Ref.ofValue (.object id) = [.value (.object id)] := rfl
      rw [htaken, List.count_singleton_self]
    have hdupe : Gives c r id ls m 1 (Host.dupe ⟨c, .object id⟩) ⟨c, .object id⟩ m (1 + 1) :=
      asked retain_answered pure
    have hrun : (Client.Access.set p v hv).run ⟨c, .object id⟩ = (do
        Host.set ⟨c, .object id⟩ p.name (← Host.dupe ⟨c, .object id⟩)
        Pure.pure .done) := if_pos hself
    rw [hrun, hself]
    exact hdupe.bind ((set (by decide) (by decide) hl p ⟨c, .object id⟩ hcount).bind pure)
  · have hother : (Ref.ofValue v.value).count (.value (.object id)) = 0 := by
      unfold Ref.ofValue
      split
      · exact List.count_eq_zero.2 fun h => hself (Ref.value.inj (List.mem_singleton.1 h)).symm
      · rfl
    have hrun : (Client.Access.set p v hv).run ⟨c, .object id⟩ = (do
        Host.set ⟨c, .object id⟩ p.name (← Pure.pure v)
        Pure.pure .done) := if_neg hself
    rw [hrun]
    exact pure.bind ((set (by decide) (by decide) hl p v (by rw [hother])).bind pure)

/-! ### One access, and one after the other -/

/-- A client is told what the map answers, and the object goes on to stand for the map. -/
theorem access (a : Client.Access) (ha : ∀ l ∈ a.label?, l ∈ ls)
    (hm : ∀ l, m.lookup l ≠ some .exception) :
    Gives c r id ls m 1 (a.run ⟨c, .object id⟩) (a.step m).1 (a.step m).2 1 := by
  have hone : 0 < 1 := Nat.one_pos
  cases a with
  | @get l p => exact (get hone (ha l rfl) (hm l) p).bind pure
  | @set l p v hv => exact write (ha l rfl) p v hv
  | @has l p => exact (has hone (ha l rfl) p).bind pure
  | @delete l p => exact (delete hone p).bind pure
  | keys => exact (keys hone).bind pure
  | @makeKey l k =>
      have hlabel : Client.Access.Answer.label (.ofKey l.key) = .label l := by rw [Label.ofKey_key]
      refine (makeKey hone k).bind ?_
      rw [hlabel]
      exact pure

end Gives

end Host

namespace Client

namespace Access

variable {m : OrderedMap Label Value}

/-- The sentinel does not come into a map. -/
theorem lookup_step (hm : ∀ l, m.lookup l ≠ some .exception) (a : Access) :
    ∀ l, (a.step m).2.lookup l ≠ some .exception := by
  intro l
  cases a with
  | @set l' p v hv =>
      rw [step, OrderedMap.lookup_set]
      split
      next => exact fun h => hv.1 (Option.some.inj h)
      next => exact hm l
  | @delete l' p =>
      rw [step, OrderedMap.lookup_erase]
      split
      next => exact nofun
      next => exact hm l
  | get _ | has _ | keys | makeKey _ => exact hm l

/-- Keys of a map stay distinct. -/
theorem nodup_step (hm : (m.map Prod.fst).Nodup) (a : Access) :
    ((a.step m).2.map Prod.fst).Nodup := by
  cases a with
  | set p v hv => exact OrderedMap.nodup_set hm _ _
  | delete p => exact OrderedMap.nodup_erase hm _
  | get _ | has _ | keys | makeKey _ => exact hm

theorem nodup_after (hm : (m.map Prod.fst).Nodup) (as : List Access) :
    ((after m as).map Prod.fst).Nodup := by
  induction as generalizing m with
  | nil => exact hm
  | cons a as ih => exact ih (nodup_step hm a)

theorem answers_append (m : OrderedMap Label Value) (as bs : List Access) :
    answers m (as ++ bs) = answers m as ++ answers (after m as) bs := by
  induction as generalizing m with
  | nil => rfl
  | cons a as ih =>
      have hrest := ih (a.step m).2
      rw [List.cons_append, answers, answers, hrest]
      rfl

end Access

/-! ## Runs -/

variable {c : ContextId} {r : RealmId} {id : Nat} {ls : List Label} {m : OrderedMap Label Value}

/-- One access after the other, a client is told what the map answers. -/
theorem accesses_give (as : List Access) (has : ∀ a ∈ as, ∀ l ∈ a.label?, l ∈ ls)
    (hm : ∀ l, m.lookup l ≠ some .exception) :
    Host.Gives c r id ls m 1 (as.mapM (Access.run ⟨c, .object id⟩)) (Access.answers m as)
      (Access.after m as) 1 := by
  induction as generalizing m with
  | nil => exact .pure
  | cons a as ih =>
      have hhead : Host.Gives c r id ls m 1 (a.run ⟨c, .object id⟩) (a.step m).1 (a.step m).2 1 :=
        .access a (has a List.mem_cons_self) hm
      have htail := ih (fun a ha => has a (List.mem_cons_of_mem _ ha)) (Access.lookup_step hm a)
      rw [List.mapM_cons]
      exact hhead.bind (htail.bind .pure)

/-- A host that just made an object keeps it, as an empty map. -/
theorem newObject_keeps {s₀ s : Host ScriptEngine}
    (hnew : Host.newObject c s₀ = (.ok ⟨c, .object id⟩, s))
    (hbeyond : ∀ l ∈ ls, s.engine.machine.find l.key (some id) = .absent) :
    ∃ r, Host.Keeps s c r id ls [] 1 := by
  cases hr : (Contexts.entry s₀.contexts c).realm with
  | none =>
      rw [Host.newObject, Accounting.bind_error (Accounting.live_error hr)] at hnew
      cases hnew
  | some r =>
      obtain ⟨s₁, hask, hcontexts, hengine, -⟩ := Accounting.ask_eq (.newObject r) s₀
      rw [Host.newObject, Accounting.bind_ok (Accounting.live_ok hr),
        Accounting.bind_ok hask] at hnew
      obtain ⟨hvalue, rfl⟩ := Prod.mk.inj hnew
      have hreply : (Engine.answer (.newObject r) s₀.engine).reply = Value.object id :=
        congrArg Handle.value (Except.ok.inj hvalue)
      rw [hengine] at hbeyond
      refine ⟨r, ?_, ?_⟩
      · -- The prototypes are looked at after the object was made, as the caller sees them.
        rw [hengine]
        exact ScriptEngine.newObject_keeps hreply hbeyond
      · rwa [hcontexts]

/-- A new object answers accesses of any number and order as a map does that is empty at first,
as long as they mean nothing that its prototypes have.  What is listed of such a map is every text
among its keys, each once. -/
theorem object_answers_as_map {s₀ s : Host ScriptEngine}
    (hnew : Host.newObject c s₀ = (.ok ⟨c, .object id⟩, s)) (as : List Access)
    (hbeyond : ∀ a ∈ as, ∀ l ∈ a.label?, s.engine.machine.find l.key (some id) = .absent) :
    (as.mapM (Access.run ⟨c, .object id⟩) s).1 = .ok (Access.answers [] as) ∧
      (Access.after [] as).listing.Nodup ∧
      ∀ t, t ∈ (Access.after [] as).listing ↔ ((Access.after [] as).lookup (.text t)).isSome := by
  have hdistinct : ((Access.after [] as).map Prod.fst).Nodup := Access.nodup_after (by simp) as
  refine ⟨?_, OrderedMap.nodup_listing hdistinct, fun t => OrderedMap.mem_listing⟩
  have hlabels : ∀ l ∈ as.flatMap fun a => a.label?.toList,
      s.engine.machine.find l.key (some id) = .absent := by
    intro l hl
    obtain ⟨a, ha, hl⟩ := List.mem_flatMap.1 hl
    exact hbeyond a ha l (Option.mem_toList.1 hl)
  obtain ⟨r, hkept⟩ := newObject_keeps hnew hlabels
  have hgives : Host.Gives c r id (as.flatMap fun a => a.label?.toList) [] 1
      (as.mapM (Access.run ⟨c, .object id⟩)) (Access.answers [] as) (Access.after [] as) 1 := by
    refine accesses_give as (fun a ha l hl => ?_) (by simp)
    exact List.mem_flatMap.2 ⟨a, ha, Option.mem_toList.2 hl⟩
  obtain ⟨s', hrun, -⟩ := hgives s hkept
  rw [hrun]

/-- A host with one context, in which the prototype of new objects has a member. -/
def inheritingHost : Host ScriptEngine :=
  let places := (Array.replicate Intrinsic.places none).setIfInBounds
    Intrinsic.objectPrototype.place (some 0)
  let members := #[(Key.str "inherited", Property.plain (.int 7))]
  { engine := { machine :=
      { heap := #[{ props := { members } }], realms := #[{ intrinsics := places }] } }
    contexts := (∅ : Contexts).insert 0 { realm := some 0 } }

/-- Numbers are listed in order, however they were written; a number with a zero in front and one
that is too large are not among them, and what was deleted comes back at the end. -/
theorem object_answers_as_map_inheriting :
    let two : KeyHandle := ⟨0, .name (.ofString "02")⟩
    let accesses : List Access := [
      .set (.text "b") ⟨0, .int 1⟩ (by decide), .set (.text "02") ⟨0, .object 1⟩ (by decide),
      .set (.text "4294967295") ⟨0, .null⟩ (by decide), .makeKey (.index 4294967294),
      .set (.index 10 (by decide)) ⟨0, .bool true⟩ (by decide),
      .set (.text "9") ⟨0, .int 3⟩ (by decide), .get (.text "10"), .delete (.text "b"),
      .has (.text "b"), .delete (.text "b"), .get (.text "b"),
      .set (.text "b") ⟨0, .int 4⟩ (by decide),
      .get (.key two (.ofText (c := 0) (s := "02") inheritingHost (by decide +kernel)))]
    ∃ s, Host.newObject 0 inheritingHost = (.ok ⟨0, .object 1⟩, s) ∧
      ((accesses ++ [Access.keys]).mapM (Access.run ⟨0, .object 1⟩) s).1 = .ok [.done, .done, .done,
        .label (.text (.ofString "4294967294")), .done, .done, .value (.bool true), .flag true,
        .flag false, .flag false, .value .undefined, .done, .value (.object 1),
        .texts ["9", "10", "02", "4294967295", "b"]] := by
  intro two accesses
  have hnew : Host.newObject 0 inheritingHost =
      (.ok ⟨0, .object 1⟩, (Host.newObject 0 inheritingHost).2) := rfl
  -- None of the labels is what the prototype has.
  have hall : ((accesses ++ [Access.keys]).flatMap fun a => a.label?.toList).all fun l =>
      match (Host.newObject 0 inheritingHost).2.engine.machine.find l.key (some 1) with
      | .absent => true
      | _ => false := by decide +kernel
  have hbeyond : ∀ a ∈ accesses ++ [Access.keys], ∀ l ∈ a.label?,
      (Host.newObject 0 inheritingHost).2.engine.machine.find l.key (some 1) = .absent := by
    intro a ha l hl
    have habsent := List.all_eq_true.1 hall l
      (List.mem_flatMap.2 ⟨a, ha, Option.mem_toList.2 hl⟩)
    split at habsent
    next h => exact h
    next => cases habsent
  have hanswers : Access.answers [] accesses = [.done, .done, .done,
      .label (.text (.ofString "4294967294")), .done, .done, .value (.bool true), .flag true,
      .flag false, .flag false, .value .undefined, .done, .value (.object 1)] := by decide
  have htexts : (Access.after [] accesses).texts =
      [.ofString "02", .ofString "4294967295", .ofString "10", .ofString "9", .ofString "b"] := by
    decide
  have hlisting : (Access.after [] accesses).listing.map Text.toHostString =
      ["9", "10", "02", "4294967295", "b"] := by
    have hnumbers : [.ofString "02", .ofString "4294967295", .ofString "10", .ofString "9",
        .ofString "b"].filterMap OrderedMap.decimal? = [10, 9] := by decide
    have hsorted : [10, 9].mergeSort = [9, 10] := by simp [List.mergeSort]
    rw [OrderedMap.listing, htexts, hnumbers, hsorted]
    decide
  have hkeys : Access.answers (Access.after [] accesses) [.keys] =
      [.texts ((Access.after [] accesses).listing.map Text.toHostString)] := rfl
  refine ⟨_, hnew, ?_⟩
  rw [(object_answers_as_map hnew _ hbeyond).1, Access.answers_append, hanswers, hkeys, hlisting]
  rfl

end Client

end ScriptHost
