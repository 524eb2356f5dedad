import Mathlib

/-! Broadcast channels with a bounded memory, and readers that keep up with a store by them. All
values sent are kept in the model; a receiver that is more than the capacity behind is told so, and
goes on with the oldest value that the channel still has. -/

namespace TunnelWeaver.Broadcast

variable {α σ ρ : Type}

/-- What a receiver gets, and where it goes on. -/
inductive Received (α : Type)
  | value (a : α) (next : Nat)
  | lagged (next : Nat)
  | empty

def recv (capacity : Nat) (sent : List α) (next : Nat) : Received α :=
  if next + capacity < sent.length then .lagged (sent.length - capacity)
  else match sent[next]? with
    | some a => .value a (next + 1)
    | none => .empty

/-- What a receiver has not read. -/
abbrev unread (sent : List α) (next : Nat) : List α := sent.drop next

variable {capacity next n : Nat} {sent pending changes : List α} {a : α}

theorem recv_eq_value (h : recv capacity sent next = .value a n) :
    n = next + 1 ∧ unread sent next = a :: unread sent n := by
  unfold recv at h
  split at h
  · cases h
  · split at h
    · rename_i a' ha
      cases h
      obtain ⟨hlt, hget⟩ := List.getElem?_eq_some_iff.mp ha
      exact ⟨rfl, by rw [unread, List.drop_eq_getElem_cons hlt, hget]⟩
    · cases h

theorem recv_eq_lagged (h : recv capacity sent next = .lagged n) : next < n ∧ n ≤ sent.length := by
  unfold recv at h
  split at h
  · cases h
    omega
  · split at h <;> cases h

theorem recv_eq_empty (h : recv capacity sent next = .empty) : unread sent next = [] := by
  unfold recv at h
  split at h
  · cases h
  · split at h
    · cases h
    · rename_i hnone
      exact List.drop_eq_nil_iff.mpr (List.getElem?_eq_none_iff.mp hnone)

theorem unread_append (hle : next ≤ sent.length) (more : List α) :
    unread (sent ++ more) next = unread sent next ++ more :=
  List.drop_append_of_le_length hle

/-! ## Readers -/

variable {read : σ → ρ} {stale : α → ρ → Prop} {s s' : σ} {held : ρ}

/-- A write is announced, by changes that make stale what was read before it, where it is another
reading after it. -/
def Announced (read : σ → ρ) (stale : α → ρ → Prop) (s s' : σ) (changes : List α) : Prop :=
  read s' ≠ read s → ∃ a ∈ changes, stale a (read s)

/-- A reader is up to date with the store, or a change that makes its reading stale is still to be
announced or to be read. -/
def UpToDate (read : σ → ρ) (stale : α → ρ → Prop) (s : σ) (pending unread : List α) (held : ρ) :
    Prop :=
  read s = held ∨ ∃ a ∈ pending ++ unread, stale a held

theorem UpToDate.of_read (pending unread : List α) : UpToDate read stale s pending unread (read s) :=
  .inl rfl

theorem UpToDate.write {unread : List α} (h : UpToDate read stale s pending unread held)
    (hannounced : Announced read stale s s' changes) :
    UpToDate read stale s' (pending ++ changes) unread held := by
  rcases h with rfl | ⟨a, ha, hstale⟩
  · by_cases hsame : read s' = read s
    · exact .inl hsame
    · obtain ⟨a, ha, hstale⟩ := hannounced hsame
      exact .inr ⟨a, List.mem_append_left _ (List.mem_append_right _ ha), hstale⟩
  · refine .inr ⟨a, ?_, hstale⟩
    rcases List.mem_append.mp ha with ha | ha
    · exact List.mem_append_left _ (List.mem_append_left _ ha)
    · exact List.mem_append_right _ ha

theorem UpToDate.publish {i : Nat} (h : UpToDate read stale s pending (unread sent next) held)
    (hle : next ≤ sent.length) (hi : pending[i]? = some a) :
    UpToDate read stale s (pending.eraseIdx i) (unread (sent ++ [a]) next) held := by
  rcases h with h | ⟨b, hb, hstale⟩
  · exact .inl h
  · refine .inr ⟨b, ?_, hstale⟩
    rw [unread_append hle]
    rcases List.mem_append.mp hb with hb | hb
    · obtain ⟨j, hj⟩ := List.mem_iff_getElem?.mp hb
      by_cases hij : j = i
      · subst hij
        obtain rfl := Option.some.inj (hi.symm.trans hj)
        exact List.mem_append_right _ (List.mem_append_right _ (List.mem_singleton_self _))
      · exact List.mem_append_left _ (List.mem_eraseIdx_iff_getElem?.mpr ⟨j, hij, hj⟩)
    · exact List.mem_append_right _ (List.mem_append_left _ hb)

/-- A change that does not concern the reading can be passed over. -/
theorem UpToDate.skip (h : UpToDate read stale s pending (unread sent next) held)
    (hrecv : recv capacity sent next = .value a n) (ha : ¬stale a held) :
    UpToDate read stale s pending (unread sent n) held := by
  obtain ⟨-, hunread⟩ := recv_eq_value hrecv
  rw [hunread] at h
  rcases h with h | ⟨b, hb, hstale⟩
  · exact .inl h
  · refine .inr ⟨b, ?_, hstale⟩
    rcases List.mem_append.mp hb with hb | hb
    · exact List.mem_append_left _ hb
    · rcases List.mem_cons.mp hb with rfl | hb
      · exact absurd hstale ha
      · exact List.mem_append_right _ hb

/-- With nothing to announce and nothing to read, the reading is that of the store. -/
theorem UpToDate.eq_of_quiet (h : UpToDate read stale s [] [] held) : read s = held := by
  rcases h with h | ⟨a, ha, -⟩
  · exact h
  · cases ha

end TunnelWeaver.Broadcast
