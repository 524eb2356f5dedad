import TunnelWeaver.Server.RevokeReply

/-! What a revoke leaves behind at the relay: nothing holds the key, and that stays so while machines
with other keys come and go. A request is told only what the tables say. -/

namespace TunnelWeaver.Server

open Mux (KeyId)

namespace MachineStore

variable {s : MachineStore} {key key' : KeyId}

/-- `key_id` is unique. -/
def KeysUnique (s : MachineStore) : Prop :=
  ∀ i j m m', s.machines.get? i = some m → s.machines.get? j = some m' → m.keyId = m'.keyId → i = j

theorem machineByKey_eq_none :
    s.machineByKey key = none ↔ ∀ {i m}, s.machines.get? i = some m → m.keyId ≠ key := by
  rw [machineByKey, Table.find?_eq_none]
  simp only [decide_eq_false_iff_not, ne_eq]

theorem get?_revokeMachine {i : Nat} {m : MachineRow}
    (h : (s.revokeMachine key).machines.get? i = some m) : s.machines.get? i = some m := by
  unfold revokeMachine at h
  split at h
  · exact h
  · dsimp only at h
    rw [Table.get?_delete, Option.filter_eq_some_iff] at h
    exact h.1

theorem KeysUnique.revokeMachine (h : KeysUnique s) : KeysUnique (s.revokeMachine key) :=
  fun i j m m' hi hj => h i j m m' (get?_revokeMachine hi) (get?_revokeMachine hj)

theorem machineByKey_revokeMachine_none (h : s.machineByKey key = none) :
    (s.revokeMachine key').machineByKey key = none :=
  machineByKey_eq_none.mpr fun hi => machineByKey_eq_none.mp h (get?_revokeMachine hi)

/-- Nothing holds a key that was revoked. -/
theorem machineByKey_revokeMachine (h : KeysUnique s) :
    (s.revokeMachine key).machineByKey key = none := by
  refine machineByKey_eq_none.mpr fun {i m} hi hkey => ?_
  unfold revokeMachine at hi
  split at hi
  · rename_i hnone
    exact machineByKey_eq_none.mp hnone hi hkey
  · rename_i j found hfound
    obtain ⟨hj, hfoundKey⟩ := Table.find?_some hfound
    dsimp only at hi
    rw [Table.get?_delete, Option.filter_eq_some_iff] at hi
    have hij : i = j := h i j m found hi.1 hj (hkey.trans (of_decide_eq_true hfoundKey).symm)
    simp [hij] at hi

theorem get?_createMachine {person i : Nat} {name : String} {m : MachineRow}
    (h : (s.createMachine person name key).machines.get? i = some m) :
    s.machines.get? i = some m ∨
      m.keyId = key ∧ i = s.machines.next ∧ s.machineByKey key = none := by
  unfold createMachine at h
  split at h
  · exact .inl h
  · rename_i hfree
    dsimp only at h
    rw [Table.get?_insert] at h
    split at h
    · rename_i hi
      cases h
      refine .inr ⟨rfl, hi, machineByKey_eq_none.mpr fun {j m'} hj hkey => hfree ?_⟩
      have hsome : (s.machines.find? fun _ m => m.keyId = key ||
          (m.personId = person && m.name = name)).isSome = true := by
        by_contra hnone
        have hnot := Table.find?_eq_none.mp (Option.not_isSome_iff_eq_none.mp hnone) hj
        simp [hkey] at hnot
      rw [hsome, Bool.or_true]
    · exact .inl h

theorem KeysUnique.createMachine (h : KeysUnique s) {person : Nat} {name : String} :
    KeysUnique (s.createMachine person name key) := by
  intro i j m m' hi hj hkey
  rcases get?_createMachine hi with hi | ⟨hm, hi, hnone⟩
  · rcases get?_createMachine hj with hj | ⟨hm', -, hnone⟩
    · exact h i j m m' hi hj hkey
    · exact absurd (hkey.trans hm') (machineByKey_eq_none.mp hnone hi)
  · rcases get?_createMachine hj with hj | ⟨-, hj, -⟩
    · exact absurd (hkey.symm.trans hm) (machineByKey_eq_none.mp hnone hj)
    · exact hi.trans hj.symm

theorem machineByKey_createMachine_none {person : Nat} {name : String}
    (h : s.machineByKey key = none) (hkey : key' ≠ key) :
    (s.createMachine person name key').machineByKey key = none := by
  refine machineByKey_eq_none.mpr fun hi => ?_
  rcases get?_createMachine hi with hi | ⟨hm, -⟩
  · exact machineByKey_eq_none.mp h hi
  · exact hm ▸ hkey

end MachineStore

namespace RevokeReply.World

variable {t : Tunnel} {w w' : World} {a : Act}

/-- A machine was revoked for a request, or its reply is on the way to the driver. -/
def Told (w : World) : Prop :=
  (∃ i r, w.requests.lookup i = some r ∧ r.phase ≠ .requested ∧ r.phase ≠ .refused) ∨
    ∃ i, .reply i ∈ w.commands

theorem store_spawnOn (w : World) (c : Command) (full : Bool) :
    (w.spawnOn c full).store = w.store := by cases full <;> rfl

theorem requests_spawnOn (w : World) (c : Command) (full : Bool) :
    (w.spawnOn c full).requests = w.requests := by cases full <;> rfl

theorem mem_spawnOn {c c' : Command} {full : Bool} (h : c' ∈ (w.spawnOn c full).commands) :
    c' ∈ w.commands ∨ c' = c := by
  cases full with
  | true => exact .inl h
  | false => exact (List.mem_append.mp h).imp_right List.mem_singleton.mp

/-- A step of a request that was told already, or that stays untold. -/
theorem told_setRequest {id : Nat} {r r' : Request} (hid : w.requests.lookup id = some r)
    (hphase : r'.phase ≠ .requested → r'.phase ≠ .refused →
      r.phase ≠ .requested ∧ r.phase ≠ .refused)
    (h : ∃ i r₁, (w.setRequest id r').requests.lookup i = some r₁ ∧ r₁.phase ≠ .requested ∧
      r₁.phase ≠ .refused) : w.Told := by
  obtain ⟨i, r₁, hi, hr⟩ := h
  rw [lookup_setRequest] at hi
  split at hi
  · cases hi
    exact .inl ⟨id, r, hid, hphase hr.1 hr.2⟩
  · exact .inl ⟨i, r₁, hi, hr⟩

theorem store_deliver (w : World) (sent : Option (Oneshot × Mux.CloseCode)) :
    (w.deliver t sent).store = w.store := by
  unfold deliver
  split
  · split <;> rfl
  · rfl

theorem told_deliver {sent : Option (Oneshot × Mux.CloseCode)} :
    (w.deliver t sent).Told ↔ w.Told := by
  unfold deliver
  split
  · split <;> rfl
  · rfl

theorem told_perform {c : Command} {commands : List Command} (hcommands : w.commands = c :: commands)
    (h : ({ w with commands }.perform c).Told) : w.Told := by
  have hmem (hi : ∃ i, .reply i ∈ commands) : w.Told := by
    obtain ⟨i, hi⟩ := hi
    exact .inr ⟨i, by rw [hcommands]; exact List.mem_cons_of_mem _ hi⟩
  cases c with
  | reply id => exact .inr ⟨id, by rw [hcommands]; exact List.mem_cons_self⟩
  | refuse id => exact h.elim .inl hmem
  | close code => exact h.elim .inl hmem

/-- What a step tells the relay has done, or was told before. -/
theorem told_of_step (hstep : w.step t a = some w') (h : w'.Told) :
    w.Told ∨ w'.store = w.store.revokeMachine t.key := by
  cases a with
  | request id =>
    simp only [step] at hstep
    split at hstep
    · cases hstep
    · rename_i hfree
      cases hstep
      refine .inl (h.elim (fun h => ?_) .inr)
      obtain ⟨i, r, hi, hr⟩ := h
      change (w.setRequest id { phase := .requested }).requests.lookup i = some r at hi
      rw [lookup_setRequest] at hi
      split at hi
      · cases hi
        exact absurd rfl hr.1
      · exact .inl ⟨i, r, hi, hr⟩
  | revokeMachine id fails =>
    obtain ⟨r, hid, hphase, rfl⟩ := inPhase_eq_some hstep
    cases fails with
    | false => exact .inr rfl
    | true =>
      rcases h with h | ⟨i, hi⟩
      · exact .inl (told_setRequest hid (fun _ hr => absurd rfl hr) h)
      · rcases List.mem_append.mp hi with hi | hi
        · exact .inl (.inr ⟨i, hi⟩)
        · cases List.mem_singleton.mp hi
  | unregister id now =>
    obtain ⟨r, hid, hphase, rfl⟩ := inPhase_eq_some hstep
    refine .inl (h.elim (told_setRequest hid fun _ _ => ?_) .inr)
    rw [hphase]
    decide
  | sendReply id full =>
    obtain ⟨r, hid, hphase, rfl⟩ := inPhase_eq_some hstep
    refine .inl (.inl ⟨id, r, hid, ?_⟩)
    rw [hphase]
    decide
  | graceOver id full =>
    obtain ⟨r, hid, hphase, rfl⟩ := inPhase_eq_some hstep
    refine .inl (.inl ⟨id, r, hid, ?_⟩)
    rw [hphase]
    decide
  | carryClose full =>
    simp only [step] at hstep
    split at hstep
    · cases hstep
    · cases hstep
      rw [Told, requests_spawnOn] at h
      left
      refine h.imp_right fun hreply => ?_
      obtain ⟨i, hi⟩ := hreply
      rcases mem_spawnOn hi with hi | hi
      · exact ⟨i, hi⟩
      · cases hi
  | command =>
    simp only [step] at hstep
    split at hstep
    · cases hstep
    · rename_i c commands hcommands
      split at hstep
      · cases hstep
      · cases hstep
        exact .inl (told_perform hcommands h)
  | verify =>
    simp only [step] at hstep
    split at hstep
    · cases hstep
    · cases hstep
      exact .inl h
  | identity fails =>
    simp only [step] at hstep
    split at hstep
    · cases hstep
      exact .inl h
    · cases hstep
  | closeConnection key code =>
    cases hstep
    have htold := told_deliver.mp h
    exact .inl htold
  | registerConnection key closeTx now =>
    simp only [step] at hstep
    split at hstep
    · cases hstep
    · cases hstep
      have htold := told_deliver.mp h
      exact .inl htold
  | unregisterConnection key connectionId now =>
    simp only [step] at hstep
    split at hstep
    · cases hstep
    · cases hstep
      exact .inl h
  | deleteMachine key =>
    cases hstep
    exact .inl h
  | createMachine person name key =>
    cases hstep
    exact .inl h

theorem store_perform (w : World) (c : Command) : (w.perform c).store = w.store := by
  cases c with
  | reply id =>
    unfold perform
    dsimp only
    split <;> rfl
  | refuse id => rfl
  | close code => rfl

/-- A step of a connection that is not told to change the machines revokes one or none. -/
theorem store_of_step (hstep : w.step t a = some w')
    (ha : ∀ person name key, a ≠ .createMachine person name key) :
    w'.store = w.store ∨ ∃ key, w'.store = w.store.revokeMachine key := by
  cases a with
  | request id =>
    simp only [step] at hstep
    split at hstep
    · cases hstep
    · cases hstep
      exact .inl rfl
  | revokeMachine id fails =>
    obtain ⟨r, hid, hphase, rfl⟩ := inPhase_eq_some hstep
    cases fails with
    | true => exact .inl rfl
    | false => exact .inr ⟨t.key, rfl⟩
  | unregister id now =>
    obtain ⟨r, hid, hphase, rfl⟩ := inPhase_eq_some hstep
    exact .inl rfl
  | sendReply id full =>
    obtain ⟨r, hid, hphase, rfl⟩ := inPhase_eq_some hstep
    exact .inl (store_spawnOn ..)
  | graceOver id full =>
    obtain ⟨r, hid, hphase, rfl⟩ := inPhase_eq_some hstep
    exact .inl (store_spawnOn ..)
  | carryClose full =>
    simp only [step] at hstep
    split at hstep
    · cases hstep
    · cases hstep
      exact .inl (store_spawnOn ..)
  | command =>
    simp only [step] at hstep
    split at hstep
    · cases hstep
    · split at hstep
      · cases hstep
      · cases hstep
        exact .inl (store_perform ..)
  | verify =>
    simp only [step] at hstep
    split at hstep
    · cases hstep
    · cases hstep
      exact .inl rfl
  | identity fails =>
    simp only [step] at hstep
    split at hstep
    · cases hstep
      exact .inl rfl
    · cases hstep
  | closeConnection key code =>
    cases hstep
    exact .inl (store_deliver ..)
  | registerConnection key closeTx now =>
    simp only [step] at hstep
    split at hstep
    · cases hstep
    · cases hstep
      exact .inl (store_deliver ..)
  | unregisterConnection key connectionId now =>
    simp only [step] at hstep
    split at hstep
    · cases hstep
    · cases hstep
      exact .inl rfl
  | deleteMachine key =>
    cases hstep
    exact .inr ⟨key, rfl⟩
  | createMachine person name key => exact absurd rfl (ha person name key)

end RevokeReply.World

end TunnelWeaver.Server
