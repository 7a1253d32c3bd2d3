import ZkVerify.Frame.RefCount
import ZkVerify.Verifiers.Run

/-!
# The registry of verification keys

`Vks` and `Tickets` are two views of the registrations: a key is stored as long as
somebody has a ticket for it, and its reference count is the number of these tickets.
`Registered` states this for one state, with `RefCounted` at the maps of the pallet.

`FirstStored` looks back: the key stored under a hash passed the verifier's check in the
state in which it was stored, and it has been stored ever since.
-/

namespace ZkVerify.Verifiers

open Frame

variable {A V P I X T : Type} [DecidableEq A] {cfg : Config A V P I X T} {s s' : State A V X T}
  {c : Call A V P I}

/-! ## One call -/

theorem VkEntry.register_ok {vk : V} {old : Option (VkEntry V)} {entry : VkEntry V}
    (h : VkEntry.register vk old = .ok entry) :
    (∃ e, old = some e ∧ entry = ⟨e.vk, e.refCount + 1⟩) ∨ (old = none ∧ entry = ⟨vk, 1⟩) := by
  cases old with
  | none =>
      cases h
      exact .inr ⟨rfl, rfl⟩
  | some e =>
      obtain ⟨n, hn, h⟩ := seq_eq_ok.mp h
      obtain ⟨-, rfl⟩ := checkedAdd_eq_some.mp (okOr_eq_ok.mp hn)
      cases h
      exact .inl ⟨e, rfl, rfl⟩

/-- A key stored after a call was stored before it, or the call stores it as a valid one. -/
theorem Effect.stored {h : H256} {entry' : VkEntry V} (heffect : Effect cfg s c s')
    (hlookup' : s'.vks.lookup h = some entry') :
    (∃ entry, s.vks.lookup h = some entry ∧ entry.vk = entry'.vk) ∨
      (∃ origin, c = .registerVk origin entry'.vk ∧ h ∉ s.vks ∧
        cfg.verifier.validateVk entry'.vk s.chain = .ok ()) := by
  cases heffect with
  | verified | switched => exact .inl ⟨entry', hlookup', rfl⟩
  | @registered who vk ticket x entry _ _ hvalid _ hentry =>
      by_cases hh : h = cfg.verifier.vkHash vk
      · -- A second registration keeps the stored key, the first one stores the given key.
        subst hh
        rw [Finmap.lookup_insert] at hlookup'
        cases hlookup'
        rcases VkEntry.register_ok hentry with ⟨e, he, rfl⟩ | ⟨hnone, rfl⟩
        · exact .inl ⟨e, he, rfl⟩
        · exact .inr ⟨.signed who, rfl, Finmap.lookup_eq_none.mp hnone, hvalid⟩
      · rw [Finmap.lookup_insert_of_ne _ hh] at hlookup'
        exact .inl ⟨entry', hlookup', rfl⟩
  | @unregistered who h₁ ticket x entry _ _ hlookup =>
      by_cases hh : h = h₁
      · subst hh
        rw [Finmap.lookup_insert] at hlookup'
        cases hlookup'
        exact .inl ⟨entry, hlookup, rfl⟩
      · rw [Finmap.lookup_insert_of_ne _ hh] at hlookup'
        exact .inl ⟨entry', hlookup', rfl⟩
  | @unregisteredLast who h₁ =>
      have hh : h ≠ h₁ := by
        rintro rfl
        simp at hlookup'
      rw [Finmap.lookup_erase_ne hh] at hlookup'
      exact .inl ⟨entry', hlookup', rfl⟩

/-- A call emits at most one event, and it announces the end of a key exactly if it deletes it. -/
theorem Effect.events (heffect : Effect cfg s c s') :
    ∃ new, s'.events = s.events ++ new ∧ new.length ≤ 1 ∧
      ∀ h, .vkUnregistered h ∈ new ↔ h ∈ s.vks ∧ h ∉ s'.vks := by
  cases heffect with
  | verified => exact ⟨_, rfl, le_rfl, by simp⟩
  | switched => exact ⟨[], by simp, by simp, by simp⟩
  | registered =>
      refine ⟨_, rfl, le_rfl, fun h => ?_⟩
      simp only [List.mem_singleton, reduceCtorEq, Finmap.mem_insert, not_or, false_iff, not_and]
      exact fun hmem _ hnew => hnew hmem
  | unregistered =>
      refine ⟨[], by simp, by simp, fun h => ?_⟩
      simp only [List.not_mem_nil, Finmap.mem_insert, not_or, false_iff, not_and]
      exact fun hmem _ hnew => hnew hmem
  | @unregisteredLast who h₁ ticket x entry _ _ hlookup =>
      refine ⟨_, rfl, le_rfl, fun h => ?_⟩
      simp only [List.mem_singleton, Event.vkUnregistered.injEq, Finmap.mem_erase, not_and]
      constructor
      · rintro rfl
        exact ⟨Finmap.mem_of_lookup_eq_some hlookup, fun hne => absurd rfl hne⟩
      · rintro ⟨hmem, himp⟩
        by_contra hne
        exact himp hne hmem

/-! ## The invariant -/

/-- The reference counts count the tickets, and a key is stored under its hash. -/
structure Registered (cfg : Config A V P I X T) (s : State A V X T) : Prop where
  counted : RefCounted VkEntry.refCount s.tickets s.vks
  hashed : ∀ h entry, s.vks.lookup h = some entry → cfg.verifier.vkHash entry.vk = h

namespace Registered

theorem genesis (x : X) : Registered cfg (.genesis x : State A V X T) :=
  ⟨.empty, fun h entry hlookup => by simp [State.genesis] at hlookup⟩

/-- Every successful call keeps the registry in order. -/
theorem effect (h : Registered cfg s) (heffect : Effect cfg s c s') : Registered cfg s' := by
  cases heffect with
  | verified | switched => exact ⟨h.counted, h.hashed⟩
  | registered _ hnew _ _ hentry =>
      rcases VkEntry.register_ok hentry with ⟨e, he, rfl⟩ | ⟨hnone, rfl⟩
      · exact ⟨h.counted.acquire hnew (by simp [he]),
          Finmap.forall_lookup_insert (h.hashed _ e he) fun j w _ => h.hashed j w⟩
      · exact ⟨h.counted.acquire hnew (by simp [hnone]),
          Finmap.forall_lookup_insert rfl fun j w _ => h.hashed j w⟩
  | @unregistered _ _ _ _ entry hticket _ hlookup hcount =>
      refine ⟨h.counted.release (Finmap.mem_of_lookup_eq_some hticket) hlookup ?_ ?_,
        Finmap.forall_lookup_insert (h.hashed _ entry hlookup) fun j w _ => h.hashed j w⟩
      · exact Nat.sub_add_cancel hcount.le
      · exact Nat.sub_pos_of_lt hcount
  | unregisteredLast hticket _ hlookup hcount =>
      exact ⟨h.counted.release_last (Finmap.mem_of_lookup_eq_some hticket) hlookup hcount,
        Finmap.forall_lookup_erase fun j w _ => h.hashed j w⟩

/-- Giving up a registration never panics: a ticket has an entry. -/
theorem unregisterVk_ne_panic (h : Registered cfg s) (origin : RawOrigin A) (hash : H256)
    (p : Panic) : unregisterVk cfg origin hash s ≠ .error (.panic p) := by
  intro hpanic
  unfold unregisterVk at hpanic
  cases origin with
  | root | none => cases hpanic
  | signed who =>
      simp only [ensureSigned, ok_bind] at hpanic
      split at hpanic
      · split at hpanic <;> cases hpanic
      · rename_i ticket hticket
        cases hdrop : cfg.ticket.drop ticket who s.chain with
        | error e =>
            rw [hdrop] at hpanic
            cases hpanic
        | ok x =>
            -- The ticket is one of those that are counted.
            have hmem : hash ∈ s.vks :=
              h.counted.mem_iff.mpr ⟨who, Finmap.mem_of_lookup_eq_some hticket⟩
            obtain ⟨entry, hlookup⟩ := Finmap.mem_iff.mp hmem
            simp only [hdrop, raise_ok, ok_bind, hlookup] at hpanic
            split at hpanic <;> cases hpanic

/-- A registration is given up, if the ticket can be dropped. -/
theorem unregisterVk_eq_ok (h : Registered cfg s) {who : A} {hash : H256} {ticket : T} {x : X}
    (hticket : s.tickets.lookup (who, hash) = some ticket)
    (hdrop : cfg.ticket.drop ticket who s.chain = .ok x) :
    ∃ s' info, unregisterVk cfg (.signed who) hash s = .ok (s', info) ∧
      s'.tickets = s.tickets.erase (who, hash) ∧ s'.chain = x := by
  obtain ⟨entry, hlookup⟩ := Finmap.mem_iff.mp
    (h.counted.mem_iff.mpr ⟨who, Finmap.mem_of_lookup_eq_some hticket⟩)
  simp only [unregisterVk, ensureSigned, ok_bind, hticket, hdrop, raise_ok, hlookup]
  split
  · exact ⟨_, _, rfl, rfl, rfl⟩
  · exact ⟨_, _, rfl, rfl, rfl⟩

end Registered

/-- After every run the registry is in order. -/
theorem registered_run (h : Registered cfg s) (steps : List (Step A V P I X)) :
    Registered cfg (run cfg s steps) := by
  apply run_induction h
  · intro s c s' h heffect
    exact h.effect heffect
  · intro s x h
    exact ⟨h.counted, h.hashed⟩

theorem Reachable.registered (hs : Reachable cfg s) : Registered cfg s := by
  obtain ⟨x, steps, rfl⟩ := hs
  exact registered_run (.genesis x) steps

/-! ## Looking back -/

/-- In the run of `steps` the key `vk` was stored under `h` by a registration which found no key
there and for which the verifier accepted it, and it has been stored since. -/
def FirstStored (cfg : Config A V P I X T) (x : X) (steps : List (Step A V P I X)) (h : H256)
    (vk : V) : Prop :=
  ∃ before origin after, steps = before ++ .call (.registerVk origin vk) :: after ∧
    h ∉ (run cfg (.genesis x) before).vks ∧
    cfg.verifier.validateVk vk (run cfg (.genesis x) before).chain = .ok () ∧
    ∀ first, first <+: after →
      ∃ entry, (run cfg (.genesis x) (before ++ .call (.registerVk origin vk) :: first)).vks.lookup
        h = some entry ∧ entry.vk = vk

/-- A step of a run keeps a stored key, or it stores it. -/
theorem exec_stored {step : Step A V P I X} {h : H256} {entry' : VkEntry V}
    (hlookup' : (exec cfg s step).vks.lookup h = some entry') :
    (∃ entry, s.vks.lookup h = some entry ∧ entry.vk = entry'.vk) ∨
      (∃ origin, step = .call (.registerVk origin entry'.vk) ∧ h ∉ s.vks ∧
        cfg.verifier.validateVk entry'.vk s.chain = .ok ()) := by
  cases step with
  | environment act => exact .inl ⟨entry', hlookup', rfl⟩
  | call c =>
      simp only [exec] at hlookup'
      split at hlookup'
      · rename_i s' info hok
        rcases (effect_of_dispatch hok).stored hlookup' with hold | ⟨origin, rfl, hnew⟩
        · exact .inl hold
        · exact .inr ⟨origin, rfl, hnew⟩
      · exact .inl ⟨entry', hlookup', rfl⟩

/-- Every stored key was valid when it was stored. -/
theorem firstStored_run (x : X) (steps : List (Step A V P I X)) {h : H256} {entry : VkEntry V}
    (hlookup : (run cfg (.genesis x) steps : State A V X T).vks.lookup h = some entry) :
    FirstStored cfg x steps h entry.vk := by
  induction steps using List.reverseRecOn generalizing entry with
  | nil => simp [State.genesis] at hlookup
  | append_singleton steps step ih =>
      have hnow := hlookup
      rw [run_concat] at hlookup
      rcases exec_stored hlookup with ⟨old, hold, hvk⟩ | ⟨origin, rfl, hnew, hvalid⟩
      · -- The key was there before the step, and still is.
        obtain ⟨before, origin, after, hsteps, hnone, hvalid, hsince⟩ := ih hold
        rw [hvk] at hsteps hvalid hsince
        refine ⟨before, origin, after ++ [step], by simp [hsteps], hnone, hvalid,
          fun first hfirst => ?_⟩
        rcases List.prefix_concat_iff.mp hfirst with rfl | hfirst
        · refine ⟨entry, ?_, rfl⟩
          rw [← hnow, hsteps, List.append_assoc, List.cons_append]
        · exact hsince first hfirst
      · refine ⟨steps, origin, [], rfl, hnew, hvalid, fun first hfirst => ?_⟩
        rw [List.prefix_nil] at hfirst
        subst hfirst
        exact ⟨entry, hnow, rfl⟩

/-- A stored key was given to a registration of the run. -/
theorem registered_of_stored (x : X) (steps : List (Step A V P I X)) {h : H256}
    {entry : VkEntry V}
    (hlookup : (run cfg (.genesis x) steps : State A V X T).vks.lookup h = some entry) :
    ∃ origin, .call (.registerVk origin entry.vk) ∈ steps := by
  obtain ⟨before, origin, after, hsteps, -⟩ := firstStored_run x steps hlookup
  rw [hsteps]
  exact ⟨origin, List.mem_append_right _ List.mem_cons_self⟩

/-- What is equivalent for valid keys is equivalent for stored keys, and it holds of all stored
keys if it holds of all keys that were to be registered. -/
theorem stored_iff {Q Q' : V → Prop} (x : X) (steps : List (Step A V P I X)) {h : H256}
    {entry : VkEntry V}
    (hlookup : (run cfg (.genesis x) steps : State A V X T).vks.lookup h = some entry)
    (hiff : ∀ vk x, cfg.verifier.validateVk vk x = .ok () → (Q vk ↔ Q' vk)) :
    (Q entry.vk ↔ Q' entry.vk) ∧
      ((∀ origin vk, .call (.registerVk origin vk) ∈ steps → Q' vk) → Q entry.vk) := by
  obtain ⟨before, -, -, -, -, hvalid, -⟩ := firstStored_run x steps hlookup
  obtain ⟨origin, hmem⟩ := registered_of_stored x steps hlookup
  exact ⟨hiff _ _ hvalid, fun hregistered => (hiff _ _ hvalid).mpr (hregistered origin _ hmem)⟩

/-- A valid key is stored when it is registered by an account that can pay for it. -/
theorem stored_of_registerVk {who : A} {vk : V} {ticket : T} {x x' : X}
    (hvalid : cfg.verifier.validateVk vk x = .ok ())
    (hticket : cfg.ticket.new who ⟨1, (cfg.verifier.encodeVk vk).length⟩ x = .ok (ticket, x')) :
    ∃ h entry, (run cfg (.genesis x) [.call (.registerVk (.signed who) vk)]).vks.lookup h =
      some entry ∧ entry.vk = vk := by
  have hregistered : registerVk cfg (.signed who) vk (.genesis x) = .ok _ :=
    registerVk_eq rfl Finmap.notMem_empty hvalid hticket rfl
  refine ⟨cfg.verifier.vkHash vk, .new vk, ?_, rfl⟩
  simp only [run, List.foldl_cons, List.foldl_nil, exec, dispatch, hregistered]
  exact Finmap.lookup_insert _

/-! ## The registry -/

/-- In every run, a key is stored exactly if there is a ticket for it.  Its reference count is the
number of accounts with a ticket, it is stored under its hash, and it was valid when it was stored.
Giving up a registration never panics.  A key with a ticket stays as it is, and its end is announced
exactly when its last ticket is dropped. -/
theorem registry_invariant (cfg : Config A V P I X T) (x : X) (steps : List (Step A V P I X)) :
    let s : State A V X T := run cfg (.genesis x) steps
    (∀ h, h ∈ s.vks ↔ ∃ a, (a, h) ∈ s.tickets) ∧
      (∀ h entry, s.vks.lookup h = some entry →
        entry.refCount = (holders s.tickets h).card ∧ cfg.verifier.vkHash entry.vk = h ∧
          FirstStored cfg x steps h entry.vk) ∧
      (∀ origin h p, dispatch cfg (.unregisterVk origin h) s ≠ .error (.panic p)) ∧
      ∀ c s' info, dispatch cfg c s = .ok (s', info) →
        (∀ h entry a, s.vks.lookup h = some entry → (a, h) ∈ s'.tickets →
          ∃ entry', s'.vks.lookup h = some entry' ∧ entry'.vk = entry.vk) ∧
        ∃ new, s'.events = s.events ++ new ∧ new.length ≤ 1 ∧
          ∀ h, .vkUnregistered h ∈ new ↔
            (∃ a, (a, h) ∈ s.tickets) ∧ ∀ a, (a, h) ∉ s'.tickets := by
  intro s
  have hs : Registered cfg s := registered_run (.genesis x) steps
  refine ⟨fun h => hs.counted.mem_iff, ?_, ?_, ?_⟩
  · intro h entry hlookup
    exact ⟨hs.counted.count_eq hlookup, hs.hashed h entry hlookup, firstStored_run x steps hlookup⟩
  · intro origin h p
    exact hs.unregisterVk_ne_panic origin h p
  · intro c s' info hok
    have heffect := effect_of_dispatch hok
    have hs' : Registered cfg s' := hs.effect heffect
    constructor
    · -- With a ticket left there is an entry, and a call does not exchange its key.
      intro h entry a hlookup hticket
      obtain ⟨entry', hlookup'⟩ := Finmap.mem_iff.mp (hs'.counted.mem_iff.mpr ⟨a, hticket⟩)
      refine ⟨entry', hlookup', ?_⟩
      rcases heffect.stored hlookup' with ⟨old, hold, hvk⟩ | ⟨-, -, hnew, -⟩
      · rw [hlookup, Option.some.injEq] at hold
        rw [hold, hvk]
      · exact absurd (Finmap.mem_of_lookup_eq_some hlookup) hnew
    · obtain ⟨new, hevents, hlength, hend⟩ := heffect.events
      refine ⟨new, hevents, hlength, fun h => ?_⟩
      rw [hend, hs.counted.mem_iff, hs'.counted.mem_iff, not_exists]

end ZkVerify.Verifiers
