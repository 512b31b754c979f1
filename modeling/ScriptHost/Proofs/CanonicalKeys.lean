import ScriptHost.Client.OrderedMap
import ScriptHost.Proofs.Labels
import ScriptHost.Proofs.Strings
/-!
# There is one key for each label

Whichever way a client comes by a key, it is the one key for what it stands for.  So keys are compared
without asking the engine, and what is read off a key leads back to it.
-/

namespace ScriptHost

open Accounting (bind_inv)

/-- There is no result if the engine threw. -/
theorem Accounting.orViolation_inv {σ α : Type} [Engine σ] {s : Host σ} {c : ContextId}
    {operation : String} {a : α} {r : Option α}
    (hr : (Host.orViolation c operation r s).1 = .ok a) : r = some a := by
  cases r with
  | some a' =>
      cases hr
      rfl
  | none =>
      obtain ⟨d, s₁, -, hfail⟩ := bind_inv (x := Host.takeException c)
        (f := fun d => Host.fail (.contractViolation operation d.text)) hr
      cases hfail

open Accounting (orViolation_inv bind_ok live_ok ask_eq)

/-! ## Keys that are given -/

theorem Key.interned_eq (k : Key) : k.interned = (Label.ofKey k).key := by
  cases k with
  | index n => exact ofNat_eq_ofText n
  | name _ | symbol _ | null => rfl

namespace KeyHandle

/-- The keys that an object lists are those for what they stand for. -/
theorem key_of_listed {h : Handle} {f : KeyFilter} {ks : List KeyHandle} {k : KeyHandle}
    {s : Host ScriptEngine} (hks : (Host.ownKeys h f s).1 = .ok ks) (hk : k ∈ ks) :
    k.key = (Label.ofKey k.key).key := by
  obtain ⟨-, s₁, -, hks⟩ := bind_inv hks
  obtain ⟨r, s₂, -, hks⟩ := bind_inv hks
  obtain ⟨a, s₃, hask, hks⟩ := bind_inv hks
  obtain ⟨keys, s₄, hkeys, hks⟩ := bind_inv hks
  cases hks
  obtain ⟨key, hkey, rfl⟩ := List.mem_map.1 hk
  have hreply : a = some keys := orViolation_inv (congrArg Prod.fst hkeys)
  have hanswer : (ScriptEngine.run r (do
      ScriptEngine.chosenKeys (← ScriptEngine.objectOf h.value) f) s₂.engine).1 = a :=
    Except.ok.inj (congrArg Prod.fst hask)
  obtain ⟨machine', hrun⟩ := ScriptEngine.run_inv (hanswer.trans hreply)
  obtain ⟨id, m₁, -, hchosen⟩ := Eval.ok_of_bind hrun
  obtain ⟨chosen, m₂, -, hchosen⟩ := Eval.ok_of_bind hchosen
  cases hchosen
  obtain ⟨key₀, -, rfl⟩ := List.mem_map.1 hkey
  -- The engine gives out only the one key for each label.
  rw [Key.interned_eq, Label.ofKey_key]

/-- A key that is given is the one for its label. -/
theorem Given.key_eq {k : KeyHandle} {l : Label} (hk : k.Given l) : k.key = l.key := by
  induction hk with
  | made hk => exact hk.key_eq
  | listed s hks hk => exact key_of_listed hks hk
  | duped s _ hk' ih =>
      obtain ⟨r, s₁, -, hk'⟩ := bind_inv hk'
      obtain ⟨-, s₂, -, hk'⟩ := bind_inv hk'
      cases hk'
      exact ih
  | kept s _ hk' ih =>
      obtain ⟨-, s₁, -, hk'⟩ := bind_inv hk'
      cases hk'
      exact ih

end KeyHandle

/-! ## What is read off a key -/

namespace Label

theorem handleIndex_text {t : Text} {n : Nat} :
    (Key.ofText t).handleIndex? = some n ↔ n ≤ 2147483647 ∧ t = Key.natText n := by
  have hlimit : Key.handleLimit = 2147483648 := by decide
  constructor
  · intro h
    rcases Key.ofText_cases t with ⟨i, -, ht, hkey⟩ | ⟨-, hkey⟩
    · rw [hkey, Key.handleIndex?, Option.ite_none_right_eq_some] at h
      obtain rfl : i = n := Option.some.inj h.2
      exact ⟨by omega, ht⟩
    · rw [hkey] at h
      cases h
  · rintro ⟨hn, rfl⟩
    have hindex : n < Key.indexLimit := by
      have hvalue : Key.indexLimit = 4294967295 := by decide
      omega
    rw [Key.ofText_natText hindex]
    exact if_pos (by omega)

/-- A label leads through its value to itself. -/
theorem ofValue_toValue (l : Label) : ofValue? l.toValue = some l := by
  cases l with
  | symbol id => rfl
  | text t =>
      rw [toValue]
      cases hindex : (Key.ofText t).handleIndex? with
      | none => rfl
      | some n =>
          obtain ⟨hn, rfl⟩ := handleIndex_text.1 hindex
          have hnat : (Int32.ofInt n).toInt = n := Int32.toInt_ofInt_of_le (by omega) (by omega)
          change some (text (.ofString (toString (Int32.ofInt n).toInt))) = _
          rw [hnat]
          rfl

end Label

namespace Host

variable {c : ContextId} {l : Label}

theorem newKey_delivers (t : String) : Delivers c (newKey c t) ⟨c, .ofText (.ofString t)⟩ :=
  .asked (q := (.keyOfText · t)) (f := fun _ k => Pure.pure (KeyHandle.mk c k)) fun _ _ => rfl

theorem newIndexKey_delivers (n : UInt32) :
    Delivers c (newIndexKey c n) ⟨c, .ofText (Key.natText n.toNat)⟩ :=
  .asked (q := (.keyOfIndex · n)) (f := fun _ k => Pure.pure (KeyHandle.mk c k)) fun _ _ =>
    congrArg (fun k => Pure.pure (KeyHandle.mk c k)) (Key.ofNat_eq_ofText n.toNat)

theorem dupeKey_delivers (k : Key) : Delivers c (dupeKey ⟨c, k⟩) ⟨c, k⟩ :=
  .asked (f := fun _ _ => Pure.pure (KeyHandle.mk c k)) fun _ _ => rfl

/-- The text of a key that is made of a text. -/
theorem keyText_delivers (t : Text) : Delivers c (keyText ⟨c, .ofText t⟩) t.toHostString := by
  have hdrop : Delivers c (drop ⟨c, .string t⟩) () :=
    .asked (f := fun _ _ => Pure.pure ()) fun _ _ => rfl
  intro s hlive
  obtain ⟨r, hr⟩ := Option.isSome_iff_exists.1 hlive
  obtain ⟨s₁, hask, hcontexts, -⟩ := ask_eq (.textOfKey r (.ofText t)) s
  have hreply : ((Engine.answer (.textOfKey r (.ofText t)) s.engine).reply : Value) = .string t :=
    congrArg Value.string (Label.keyText_ofText s.engine.machine t)
  have hcheck : check c (Engine.answer (.textOfKey r (.ofText t)) s.engine).reply s₁ =
      (.ok ⟨c, .string t⟩, s₁) := congrArg (fun v => check c v s₁) hreply
  obtain ⟨s', hread, hcontexts'⟩ := (toText_delivers t).ensuring hdrop s₁ (by
    rw [hcontexts]
    exact hlive)
  exact ⟨s', (bind_ok (live_ok hr)).trans ((bind_ok hask).trans ((bind_ok hcheck).trans hread)),
    hcontexts'.trans hcontexts⟩

/-- A key that is no index key is read off the engine. -/
theorem keyValue_named {k : Key} {v : Value} (hindex : k.handleIndex? = none) (hv : k.toValue = v)
    (hreal : v ≠ .exception) : Delivers c (keyValue ⟨c, k⟩) ⟨c, v⟩ := by
  have hasked : keyValue ⟨c, k⟩ =
      (do check c (← ask (.valueOfKey (← live c) k)) : Action ScriptEngine Handle) := by
    unfold keyValue
    rw [hindex]
  rw [hasked]
  refine .asked (q := (.valueOfKey · k)) fun r e => ?_
  have hcore : (ScriptEngine.core (.valueOfKey r k) e).1 = v := hv
  rw [hcore]
  exact if_neg (by simpa using hreal)

/-- An index key is read as a number. -/
theorem keyValue_index {k : Key} {n : Nat} (hindex : k.handleIndex? = some n) (hn : n ≤ 2147483647) :
    Delivers c (keyValue ⟨c, k⟩) ⟨c, .int (Int32.ofInt n)⟩ := by
  have hmade : keyValue ⟨c, k⟩ = (newUInt32 c (UInt32.ofNat n) : Action ScriptEngine Handle) := by
    unfold keyValue
    rw [hindex]
  have hnat : (UInt32.ofNat n).toNat = n := UInt32.toNat_ofNat_of_lt (by
    rw [UInt32.size]
    omega)
  have hvalue : Value.ofInt (UInt32.ofNat n).toNat = .int (Int32.ofInt n) := by
    rw [hnat, Value.ofInt, if_pos (by simp; omega)]
  rw [hmade]
  exact .live _ fun _ => congrArg (fun v => Pure.pure (Handle.mk c v)) hvalue

/-- The value of a key is that of its label. -/
theorem keyValue_delivers (l : Label) : Delivers c (keyValue ⟨c, l.key⟩) ⟨c, l.toValue⟩ := by
  cases l with
  | symbol id => exact keyValue_named rfl rfl nofun
  | text t =>
      rw [Label.toValue]
      cases hindex : (Key.ofText t).handleIndex? with
      | none =>
          refine keyValue_named hindex ?_ nofun
          rcases Key.ofText_cases t with ⟨n, -, ht, hkey⟩ | ⟨-, hkey⟩
          · exact (congrArg Key.toValue hkey).trans (congrArg Value.string ht.symm)
          · exact congrArg Key.toValue hkey
      | some n => exact keyValue_index hindex (Label.handleIndex_text.1 hindex).1

/-- A value that takes no script to be made a key is made the one for its label. -/
theorem toKey_delivers {v : Value} (hv : Label.ofValue? v = some l) :
    Delivers c (toKey ⟨c, v⟩) ⟨c, l.key⟩ :=
  .asked (q := (.keyOfValue · v)) fun r e => by
    have hkey : (ScriptEngine.core (.keyOfValue r v) e).1 = some l.key :=
      ScriptEngine.run_fst (fun _ _ => Eval.toKey_ofValue hv) r e
    rw [hkey]
    rfl

/-- A key is an index key if its string is a small number in decimal form. -/
theorem handleIndex_ofString {t : String} {n : Nat} :
    (Key.ofText (.ofString t)).handleIndex? = some n ↔ n ≤ 2147483647 ∧ t = toString n := by
  rw [Label.handleIndex_text]
  refine and_congr_right fun _ => ⟨fun ht => ?_, fun ht => congrArg Text.ofString ht⟩
  have hshown := congrArg Text.toHostString ht
  rwa [Text.toHostString_ofString, Key.natText, Text.toHostString_ofString] at hshown

/-- The largest index key, and the next number. -/
example : (isIndexKey ⟨0, .ofText (.ofString "2147483647")⟩,
    isIndexKey ⟨0, .ofText (.ofString "2147483648")⟩) = (true, false) := by decide +kernel

end Host

end ScriptHost
