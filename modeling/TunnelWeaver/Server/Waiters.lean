import TunnelWeaver.Server.CertManager

/-! How an order ends. While the authority's certificates parse and the store takes them, an order
leaves nothing behind: neither an entry of the in-flight table, nor a waiter, nor a mark. -/

namespace TunnelWeaver.Server

variable {C : Type}

/-- How far an order has come. -/
def OrderPhase.rank : OrderPhase → Nat
  | .looking => 0
  | .entering => 1
  | .marking => 2
  | .queued => 3
  | .ordering => 4
  | .parsing _ => 5
  | .refused _ => 5
  | .saving _ => 6
  | .counting _ => 6
  | .storing _ => 7
  | .failing .. => 7
  | .uncounting => 8
  | .reporting _ => 9

namespace CertManager

/-! ## Tasks -/

section
variable {m : CertManager C} {i j : Nat} {t t' x : CertTask C}

theorem getElem?_put (h : m.tasks[i]? = some t) :
    (m.put i t').tasks[j]? = if j = i then some t' else m.tasks[j]? := by
  obtain ⟨hlen, _⟩ := List.getElem?_eq_some_iff.mp h
  rw [put, List.getElem?_set]
  by_cases hj : i = j
  · subst hj
    rw [if_pos rfl, if_pos hlen, if_pos rfl]
  · rw [if_neg hj, if_neg (Ne.symm hj)]

/-- A task after a step of task `i` is the one it went on as, or another. -/
theorem of_put (h : m.tasks[i]? = some t) (hx : (m.put i t').tasks[j]? = some x) :
    j = i ∧ x = t' ∨ j ≠ i ∧ m.tasks[j]? = some x := by
  rw [getElem?_put h] at hx
  split at hx
  · exact .inl ⟨‹_›, (Option.some.inj hx).symm⟩
  · exact .inr ⟨‹_›, hx⟩

theorem getElem?_spawn (h : m.tasks[j]? = some x) : (m.spawn t).tasks[j]? = some x := by
  obtain ⟨hlen, _⟩ := List.getElem?_eq_some_iff.mp h
  rw [spawn, List.getElem?_append_left hlen]
  exact h

theorem of_spawn (hx : (m.spawn t).tasks[j]? = some x) : m.tasks[j]? = some x ∨ x = t := by
  rw [spawn, List.getElem?_append] at hx
  split at hx
  · exact .inl hx
  · rw [List.getElem?_singleton] at hx
    split at hx
    · exact .inr (Option.some.inj hx).symm
    · cases hx

/-- An order of a certificate that has come no further than `n`. -/
def Has (m : CertManager C) (n : Nat) (c : C) : Prop :=
  ∃ (j : Nat) (o : Order C), m.tasks[j]? = some (.order o) ∧ o.cert = c ∧ o.phase.rank ≤ n

theorem Has.spawn {n : Nat} {c : C} (h : m.Has n c) : (m.spawn t).Has n c := by
  obtain ⟨j, o, hj, ho⟩ := h
  exact ⟨j, o, getElem?_spawn hj, ho⟩

/-- An order is still there after a step of another task, and so is one that has not come too far. -/
theorem Has.put {n : Nat} {c : C} (h : m.Has n c) (ht : m.tasks[i]? = some t)
    (hkeep : ∀ o, t = .order o → o.cert = c → o.phase.rank ≤ n →
      ∃ o', t' = .order o' ∧ o'.cert = c ∧ o'.phase.rank ≤ n) : (m.put i t').Has n c := by
  obtain ⟨j, o, hj, hc, hn⟩ := h
  by_cases hij : j = i
  · subst hij
    obtain ⟨o', rfl, ho'⟩ := hkeep o (Option.some.inj (ht.symm.trans hj)) hc hn
    exact ⟨j, o', by rw [getElem?_put ht, if_pos rfl], ho'⟩
  · exact ⟨j, o, by rw [getElem?_put ht, if_neg hij]; exact hj, hc, hn⟩

theorem has_put {n : Nat} {o : Order C} (ht : m.tasks[i]? = some t) (ho : o.phase.rank ≤ n) :
    (m.put i (.order o)).Has n o.cert :=
  ⟨i, o, by rw [getElem?_put ht, if_pos rfl], rfl, ho⟩

end

section
variable {m : CertManager C} {t t' : CertTask C} {o : Order C}

theorem touched_ne_order {c : C} {now : Int} : m.touched c now ≠ .order o := by
  intro h
  unfold touched at h
  split at h <;> (try split at h) <;> cases h

theorem touched_ne_waiting {c c' : C} {now : Int} {caller : Caller} {owner : Nat} :
    m.touched c now ≠ .waiting caller c' owner := by
  intro h
  unfold touched at h
  split at h <;> (try split at h) <;> cases h

theorem after_ne_order {origin : Origin C} : after origin ≠ .order o := by
  cases origin <;> exact fun h => by cases h

theorem after_ne_waiting {origin : Origin C} {c : C} {caller : Caller} {owner : Nat} :
    after origin ≠ .waiting caller c owner := by
  cases origin <;> exact fun h => by cases h

/-- A quiet step of an order keeps what it is for, and does not clear the mark. -/
theorem Quiet.of_order (h : Quiet m (.order o) t') : ∃ o', t' = .order o' ∧ o'.cert = o.cert ∧
    o'.origin = o.origin ∧ o.phase.rank < o'.phase.rank ∧ o'.phase.rank ≤ 5 ∧
    (o.phase.rank ≤ 1 → 1 < o'.phase.rank → ∃ notAfter, m.status o.cert = .renewing notAfter) := by
  cases h with
  | renews hst =>
    exact ⟨_, rfl, rfl, rfl, by simp [OrderPhase.rank], by simp [OrderPhase.rank], fun _ _ => ⟨_, hst⟩⟩
  | enters =>
    exact ⟨_, rfl, rfl, rfl, by simp [OrderPhase.rank], by simp [OrderPhase.rank], by simp [OrderPhase.rank]⟩
  | issued cert =>
    exact ⟨_, rfl, rfl, rfl, by simp [OrderPhase.rank], by simp [OrderPhase.rank], by simp [OrderPhase.rank]⟩
  | denied err =>
    exact ⟨_, rfl, rfl, rfl, by simp [OrderPhase.rank], by simp [OrderPhase.rank], by simp [OrderPhase.rank]⟩

theorem Quiet.to_order (h : Quiet m t (.order o)) : ∃ o', t = .order o' := by
  generalize ht : CertTask.order o = t' at h
  cases h with
  | touched => exact absurd ht.symm touched_ne_order
  | renews => exact ⟨_, rfl⟩
  | enters => exact ⟨_, rfl⟩
  | issued => exact ⟨_, rfl⟩
  | denied => exact ⟨_, rfl⟩
  | _ => cases ht

theorem Quiet.to_waiting {c : C} {caller : Caller} {owner : Nat}
    (h : Quiet m t (.waiting caller c owner)) : m.inFlight c = some owner := by
  generalize ht : CertTask.waiting caller c owner = t' at h
  cases h with
  | touched => exact absurd ht.symm touched_ne_waiting
  | joined hin =>
    cases ht
    exact hin
  | _ => cases ht

theorem Announces.not_order {c : C} {st : CertState} {origin : Origin C}
    (h : Announces t c st origin) : t ≠ .order o := by
  cases h <;> exact fun h => by cases h

theorem Announces.state {c : C} {st : CertState} {origin : Origin C}
    (h : Announces t c st origin) : st = .ordering ∨ ∃ notAfter, st = .renewing notAfter := by
  cases h with
  | renewing => exact .inr ⟨_, rfl⟩
  | ordering => exact .inl rfl
  | found => exact .inr ⟨_, rfl⟩

theorem Starts.not_order {K : Catalog C} {a : CertAction C} (h : Starts K m a t) :
    t ≠ .order o := by
  cases h <;> exact fun h => by cases h

theorem Starts.not_waiting {K : Catalog C} {a : CertAction C} (h : Starts K m a t) {c : C}
    {caller : Caller} {owner : Nat} : t ≠ .waiting caller c owner := by
  cases h <;> exact fun h => by cases h

end

section
variable [DecidableEq C] {m m' : CertManager C} {t t' : CertTask C} {c c' : C}

omit [DecidableEq C] in
@[simp] theorem status_put {i : Nat} : (m.put i t).status c = m.status c := rfl

theorem status_setState {st : CertState} :
    (m.setState c st).status c' = if c' = c then st else m.status c' := by
  simp only [status, setState, Function.update_apply]
  split <;> rfl

theorem tasks_report {r : Except String Unit} : (m.report c r).tasks = m.tasks := by
  unfold report
  split <;> rfl

/-- The record of a certificate is left alone, but for waiters who are told. -/
structure Apart (c : C) (m m' : CertManager C) : Prop where
  tasks : m'.tasks = m.tasks
  status : m'.status c = m.status c
  ordering : m'.ordering c = m.ordering c
  told : ∀ owner, (m.results owner).isSome ∨ m.inFlight c = some owner →
    (m'.results owner).isSome ∨ m'.inFlight c = some owner

theorem apart_setState {st : CertState} (h : c' ≠ c) : Apart c' m (m.setState c st) :=
  ⟨rfl, by rw [status_setState, if_neg h], rfl, fun _ h => h⟩

theorem inFlight_report {r : Except String Unit} : (m.report c r).inFlight c = none := by
  unfold report
  split
  · exact Function.update_self ..
  · assumption

/-- The waiters of an entry are told when it is removed. -/
theorem apart_report {r : Except String Unit} : Apart c' m (m.report c r) := by
  unfold report
  split
  · rename_i owner' hin
    refine ⟨rfl, rfl, rfl, fun owner h => ?_⟩
    simp only [Function.update_apply]
    by_cases hne : owner = owner'
    · rw [if_pos hne]
      exact .inl rfl
    · rw [if_neg hne]
      refine h.imp_right fun hin' => ?_
      rw [if_neg]
      · exact hin'
      · rintro rfl
        rw [hin] at hin'
        exact hne (Option.some.inj hin').symm
  · exact ⟨rfl, rfl, rfl, fun _ h => h⟩

variable [CertifiedKeys]

theorem Advances.apart {p p' : OrderPhase} (h : Advances m c p m' p') (hc : c' ≠ c) :
    Apart c' m m' := by
  cases h with
  | entering => exact apart_setState hc
  | stored => exact apart_setState hc
  | failed => exact apart_setState hc
  | marking => exact ⟨rfl, rfl, Function.update_of_ne hc .., fun _ h => h⟩
  | parsed => exact ⟨rfl, rfl, Function.update_of_ne hc .., fun _ h => h⟩
  | cleared => exact ⟨rfl, rfl, Function.update_of_ne hc .., fun _ h => h⟩
  | queued => exact ⟨rfl, rfl, rfl, fun _ h => h⟩
  | saved => exact ⟨rfl, rfl, rfl, fun _ h => h⟩
  | uncounted => exact ⟨rfl, rfl, rfl, fun _ h => h⟩
  | counted => exact ⟨rfl, rfl, rfl, fun _ h => h⟩

theorem Advances.tasks {p p' : OrderPhase} (h : Advances m c p m' p') : m'.tasks = m.tasks := by
  cases h <;> rfl

theorem Advances.inFlight {p p' : OrderPhase} (h : Advances m c p m' p') : m'.inFlight = m.inFlight := by
  cases h <;> rfl

theorem Advances.results {p p' : OrderPhase} (h : Advances m c p m' p') : m'.results = m.results := by
  cases h <;> rfl

/-- A state is left to be pending by an order that has made its own entry in the map. -/
theorem Advances.of_pending {p p' : OrderPhase} (h : Advances m c p m' p')
    (hst : m'.status c = .pending) : m.status c = .pending ∧ 1 < p.rank := by
  have hset (st : CertState) (heq : (m.setState c st).status c = .pending) : st = .pending := by
    rw [status_setState, if_pos rfl] at heq
    exact heq
  cases h with
  | entering => cases hset _ hst
  | stored => cases hset _ hst
  | failed => cases hset _ hst
  | _ => exact ⟨hst, by simp [OrderPhase.rank]⟩

/-- A mark is set by an order that has not come to its end, or was there. -/
theorem Advances.of_mark {p p' : OrderPhase} (h : Advances m c p m' p') (hmark : m'.ordering c = true) :
    p'.rank ≤ 5 ∨ m.ordering c = true ∧ 5 < p.rank := by
  cases h with
  | entering => exact .inl (by simp [OrderPhase.rank])
  | marking => exact .inl (by simp [OrderPhase.rank])
  | queued => exact .inl (by simp [OrderPhase.rank])
  | parsed =>
    rw [show (m.insertCert c _).ordering c = false from Function.update_self ..] at hmark
    cases hmark
  | cleared =>
    rw [show (m.clearOrdering c).ordering c = false from Function.update_self ..] at hmark
    cases hmark
  | _ => exact .inr ⟨hmark, by simp [OrderPhase.rank]⟩

/-- A state that speaks of an order is that of one which has not come to its end, or was there. -/
theorem Advances.of_state {p p' : OrderPhase} (h : Advances m c p m' p')
    (hst : m'.status c = .ordering ∨ ∃ notAfter, m'.status c = .renewing notAfter) :
    p'.rank ≤ 7 ∨ (m.status c = .ordering ∨ ∃ notAfter, m.status c = .renewing notAfter) ∧
      7 < p.rank := by
  cases h with
  | stored =>
    rw [status_setState, if_pos rfl] at hst
    rcases hst with hst | ⟨_, hst⟩ <;> cases hst
  | failed =>
    rw [status_setState, if_pos rfl] at hst
    rcases hst with hst | ⟨_, hst⟩ <;> cases hst
  | uncounted => exact .inr ⟨hst, by simp [OrderPhase.rank]⟩
  | _ => exact .inl (by simp [OrderPhase.rank])

theorem Advances.rank {p p' : OrderPhase} (h : Advances m c p m' p') : p.rank < p'.rank := by
  cases h <;> simp [OrderPhase.rank]

theorem Ends.apart {p : OrderPhase} (h : Ends m c p m') : Apart c' m m' := by
  cases h with
  | unparsed => exact ⟨rfl, rfl, rfl, fun _ h => h⟩
  | reported => exact apart_report

theorem Ends.tasks {p : OrderPhase} (h : Ends m c p m') : m'.tasks = m.tasks := by
  cases h with
  | unparsed => rfl
  | reported => exact tasks_report

end

/-! ## What an order leaves behind -/

/-- Who waits will be told; a mark, and a state that speaks of an order, are those of an order that
has not come to its end. -/
structure Settles (m : CertManager C) (c : C) : Prop where
  fresh : m.status c = .pending → ∀ (j : Nat) o, m.tasks[j]? = some (.order o) → o.cert = c →
    o.phase.rank ≤ 1
  mark : m.ordering c = true → m.status c = .pending ∨ m.Has 5 c
  state : (m.status c = .ordering ∨ ∃ notAfter, m.status c = .renewing notAfter) → m.Has 7 c
  waiters : ∀ (j : Nat) caller owner, m.tasks[j]? = some (.waiting caller c owner) →
    (m.results owner).isSome ∨ m.inFlight c = some owner

section
variable {m m' : CertManager C} {t t' : CertTask C} {c : C} {i : Nat}

/-- A step of a task that is about another certificate, or has told how it went. -/
theorem Settles.apart (h : Settles m c) (hapart : Apart c m m') (ht : m.tasks[i]? = some t)
    (hfrom : ∀ o, t = .order o → o.cert = c → 7 < o.phase.rank)
    (hto : ∀ o, t' = .order o → o.cert ≠ c) (hwait : ∀ caller owner, t' ≠ .waiting caller c owner) :
    Settles (m'.put i t') c := by
  have ht' : m'.tasks[i]? = some t := by rw [hapart.tasks]; exact ht
  have hhas (n : Nat) (h7 : n ≤ 7) (hn : m.Has n c) : (m'.put i t').Has n c := by
    have hn' : m'.Has n c := by
      unfold Has
      rw [hapart.tasks]
      exact hn
    exact hn'.put ht' fun o ho hc hrank =>
      absurd (hrank.trans h7) (not_le.mpr (hfrom o ho hc))
  constructor
  · intro hst j o hj hc
    rw [status_put, hapart.status] at hst
    rcases of_put ht' hj with ⟨rfl, ho⟩ | ⟨_, hj⟩
    · exact absurd hc (hto o ho.symm)
    · rw [hapart.tasks] at hj
      exact h.fresh hst j o hj hc
  · intro hmark
    rcases h.mark (hapart.ordering.symm.trans hmark) with hst | hn
    · exact .inl (by rw [status_put, hapart.status]; exact hst)
    · exact .inr (hhas 5 (by decide) hn)
  · intro hst
    rw [status_put, hapart.status] at hst
    exact hhas 7 le_rfl (h.state hst)
  · intro j caller owner hj
    rcases of_put ht' hj with ⟨rfl, ho⟩ | ⟨_, hj⟩
    · exact absurd ho.symm (hwait caller owner)
    · rw [hapart.tasks] at hj
      exact hapart.told owner (h.waiters j caller owner hj)

theorem Settles.spawn (h : Settles m c) (horder : ∀ o, t ≠ .order o)
    (hwait : ∀ caller owner, t ≠ .waiting caller c owner) : Settles (m.spawn t) c := by
  constructor
  · intro hst j o hj hc
    rcases of_spawn hj with hj | ho
    · exact h.fresh hst j o hj hc
    · exact absurd ho.symm (horder o)
  · exact fun hmark => (h.mark hmark).imp_right Has.spawn
  · exact fun hst => (h.state hst).spawn
  · intro j caller owner hj
    rcases of_spawn hj with hj | ho
    · exact h.waiters j caller owner hj
    · exact absurd ho.symm (hwait caller owner)

theorem Settles.quiet (h : Settles m c) (ht : m.tasks[i]? = some t) (hq : Quiet m t t') :
    Settles (m.put i t') c := by
  have hhas (n : Nat) (h5 : 5 ≤ n) (hn : m.Has n c) : (m.put i t').Has n c := by
    refine hn.put ht ?_
    rintro o rfl hc _
    obtain ⟨o', rfl, hcert, _, _, hrank, _⟩ := hq.of_order
    exact ⟨o', rfl, hcert.trans hc, hrank.trans h5⟩
  constructor
  · intro hst j o hj hc
    rcases of_put ht hj with ⟨rfl, rfl⟩ | ⟨_, hj⟩
    · obtain ⟨o', rfl⟩ := hq.to_order
      obtain ⟨o'', heq, hcert, _, _, _, hrenew⟩ := hq.of_order
      cases heq
      by_contra hrank
      have hc' : o'.cert = c := hcert.symm.trans hc
      obtain ⟨notAfter, hrenewing⟩ := hrenew (h.fresh hst j o' ht hc') (not_le.mp hrank)
      rw [hc', show m.status c = .pending from hst] at hrenewing
      cases hrenewing
    · exact h.fresh hst j o hj hc
  · exact fun hmark => (h.mark hmark).imp_right (hhas 5 le_rfl)
  · exact fun hst => hhas 7 (by decide) (h.state hst)
  · intro j caller owner hj
    rcases of_put ht hj with ⟨rfl, rfl⟩ | ⟨_, hj⟩
    · exact .inr hq.to_waiting
    · exact h.waiters j caller owner hj

variable [DecidableEq C]

theorem Settles.opened (h : Settles m c) {caller : Caller} {c' : C}
    (ht : m.tasks[i]? = some (.ensuring caller c')) (hnone : m.inFlight c' = none) :
    Settles ({ m with inFlight := Function.update m.inFlight c' (some i) }.put i
      (.order ⟨c', .ensure caller, .looking⟩)) c := by
  have hhas (n : Nat) (hn : m.Has n c) :
      (m.put i (.order ⟨c', .ensure caller, .looking⟩)).Has n c :=
    hn.put ht fun o ho => by cases ho
  constructor
  · intro hst j o hj hc
    rcases of_put (m := { m with inFlight := _ }) ht hj with ⟨rfl, heq⟩ | ⟨_, hj⟩
    · cases heq
      exact Nat.zero_le 1
    · exact h.fresh hst j o hj hc
  · exact fun hmark => (h.mark hmark).imp_right (hhas 5)
  · exact fun hst => hhas 7 (h.state hst)
  · intro j caller' owner hj
    rcases of_put (m := { m with inFlight := _ }) ht hj with ⟨rfl, heq⟩ | ⟨_, hj⟩
    · cases heq
    · rcases h.waiters j caller' owner hj with hres | hin
      · exact .inl hres
      · refine .inr ((Function.update_of_ne ?_ ..).trans hin)
        rintro rfl
        rw [hnone] at hin
        cases hin

theorem Settles.announced (h : Settles m c) {c' : C} {st : CertState} {origin : Origin C}
    (ht : m.tasks[i]? = some t) (ha : Announces t c' st origin) :
    Settles ((m.setState c' st).put i (.order ⟨c', origin, .looking⟩)) c := by
  have hwait (caller owner) : CertTask.order ⟨c', origin, .looking⟩ ≠ .waiting caller c owner :=
    fun heq => by cases heq
  by_cases hc : c = c'
  · subst hc
    have hst : ((m.setState c st).put i (.order ⟨c, origin, .looking⟩)).status c = st := by
      rw [status_put, status_setState, if_pos rfl]
    have hhas (n : Nat) : ((m.setState c st).put i (.order ⟨c, origin, .looking⟩)).Has n c :=
      has_put (m := m.setState c st) ht (Nat.zero_le n)
    constructor
    · intro hpending
      rw [hst] at hpending
      rcases ha.state with rfl | ⟨notAfter, rfl⟩ <;> cases hpending
    · exact fun _ => .inr (hhas 5)
    · exact fun _ => hhas 7
    · intro j caller owner hj
      rcases of_put (m := m.setState c st) ht hj with ⟨rfl, heq⟩ | ⟨_, hj⟩
      · exact absurd heq.symm (hwait caller owner)
      · exact h.waiters j caller owner hj
  · refine h.apart (apart_setState hc) ht (fun o ho => absurd ho ha.not_order) ?_ hwait
    intro o ho
    cases ho
    exact Ne.symm hc

variable [CertifiedKeys]

theorem Settles.advanced (h : Settles m c) {c' : C} {origin : Origin C} {p p' : OrderPhase}
    (ht : m.tasks[i]? = some (.order ⟨c', origin, p⟩)) (ha : Advances m c' p m' p') :
    Settles (m'.put i (.order ⟨c', origin, p'⟩)) c := by
  have hwait (caller owner) : CertTask.order ⟨c', origin, p'⟩ ≠ .waiting caller c owner :=
    fun heq => by cases heq
  by_cases hc : c = c'
  · subst hc
    have ht' : m'.tasks[i]? = some (.order ⟨c, origin, p⟩) := by rw [ha.tasks]; exact ht
    have hhas (n : Nat) (hp : n < p.rank) (hn : m.Has n c) :
        (m'.put i (.order ⟨c, origin, p'⟩)).Has n c := by
      have hn' : m'.Has n c := by
        unfold Has
        rw [ha.tasks]
        exact hn
      refine hn'.put ht' ?_
      rintro o ho _ hrank
      cases ho
      exact absurd hrank (not_le.mpr hp)
    have hself (n : Nat) (hp : p'.rank ≤ n) : (m'.put i (.order ⟨c, origin, p'⟩)).Has n c :=
      has_put ht' hp
    have hlate (hp : 1 < p.rank) : m.status c ≠ .pending := fun hst =>
      absurd (h.fresh hst i _ ht rfl) (not_le.mpr hp)
    constructor
    · intro hst
      obtain ⟨hpending, hp⟩ := ha.of_pending hst
      exact absurd hpending (hlate hp)
    · intro hmark
      rcases ha.of_mark hmark with hp | ⟨hmark, hp⟩
      · exact .inr (hself 5 hp)
      · rcases h.mark hmark with hst | hn
        · exact absurd hst (hlate (lt_trans (by decide) hp))
        · exact .inr (hhas 5 hp hn)
    · intro hst
      rcases ha.of_state hst with hp | ⟨hst, hp⟩
      · exact hself 7 hp
      · exact hhas 7 hp (h.state hst)
    · intro j caller owner hj
      rcases of_put ht' hj with ⟨rfl, heq⟩ | ⟨_, hj⟩
      · exact absurd heq.symm (hwait caller owner)
      · rw [ha.tasks] at hj
        rw [show (m'.put i _).results = m'.results from rfl, ha.results,
          show (m'.put i _).inFlight = m'.inFlight from rfl, ha.inFlight]
        exact h.waiters j caller owner hj
  · refine h.apart (ha.apart hc) ht ?_ ?_ hwait
    · intro o ho heq
      cases ho
      exact absurd heq.symm hc
    · intro o ho
      cases ho
      exact Ne.symm hc

omit [CertifiedKeys] in
theorem Settles.reported (h : Settles m c) {c' : C} {origin : Origin C} {r : Except String Unit}
    (ht : m.tasks[i]? = some (.order ⟨c', origin, .reporting r⟩)) :
    Settles ((m.report c' r).exit i ⟨c', origin, .reporting r⟩) c := by
  have hapart : Apart c m (m.report c' r) := apart_report
  have hapart' : Apart c m { m.report c' r with permits := (m.report c' r).permits + 1 } :=
    ⟨hapart.tasks, hapart.status, hapart.ordering, hapart.told⟩
  refine h.apart hapart' ht ?_ (fun o ho => absurd ho after_ne_order)
    fun caller owner => after_ne_waiting
  intro o ho _
  cases ho
  simp [OrderPhase.rank]

theorem settles_init {K : Catalog C} {rows : C → Option IssuedCertificate} {now : Int} :
    Settles (init K rows now) c := by
  constructor
  · intro _ j o hj
    cases hj
  · intro hmark
    simp only [init, Bool.and_eq_true, Option.isNone_iff_eq_none, decide_eq_true_eq] at hmark
    exact .inl (status_init_of_none hmark.1)
  · intro hst
    cases hvalid : valid rows now c with
    | some notAfter =>
      rw [status_init_of_some hvalid] at hst
      rcases hst with hst | ⟨_, hst⟩ <;> cases hst
    | none =>
      rw [status_init_of_none hvalid] at hst
      rcases hst with hst | ⟨_, hst⟩ <;> cases hst
  · intro j caller owner hj
    cases hj

end

end CertManager

/-! ## Runs -/

section
variable [CertifiedKeys]

/-- What the authority sent to this order cannot be served. -/
def CertTask.unparsable : CertTask C → Bool
  | .order ⟨_, _, .parsing cert⟩ => !(CertifiedKeys.parse cert.certPem cert.keyPem).isOk
  | _ => false

end

/-- An order whose certificate is on its way into the store. -/
def CertTask.saves : CertTask C → Bool
  | .order ⟨_, _, .saving _⟩ => true
  | _ => false

variable [DecidableEq C]

/-- An order of a certificate. -/
def CertTask.orders (c : C) : CertTask C → Bool
  | .order o => decide (o.cert = c)
  | _ => false

namespace CertManager

/-- No other task has an order of the certificate. -/
def Alone (m : CertManager C) (i : Nat) (c : C) : Prop :=
  ∀ j < m.tasks.length, j ≠ i → ∀ t ∈ m.tasks[j]?, t.orders c = false

instance (m : CertManager C) (i : Nat) (c : C) : Decidable (m.Alone i c) := by
  unfold Alone
  infer_instance

/-- The order of task `i` ends. -/
structure Exits (m m' : CertManager C) (i : Nat) (c : C) : Prop where
  before : ∃ o, m.tasks[i]? = some (.order o) ∧ o.cert = c
  now : ∀ o, m'.tasks[i]? ≠ some (.order o)

/-- Nothing waits for an order of the certificate, and it is known how the last one went. -/
structure Released (m : CertManager C) (c : C) : Prop where
  entry : m.inFlight c = none
  waiters : ∀ (j : Nat) caller owner, m.tasks[j]? = some (.waiting caller c owner) →
    (m.results owner).isSome
  mark : m.ordering c = false
  state : (∃ notAfter, m.status c = .issued notAfter) ∨
    ∃ error nextRetry, m.status c = .failed error nextRetry

variable [CertifiedKeys] {K : Catalog C} {m m' : CertManager C} {a : CertAction C} {c : C} {i : Nat}

/-- A certificate that was issued can be served and is stored. -/
def Clean (m : CertManager C) : CertAction C → Prop
  | .go i => ∀ t ∈ m.tasks[i]?, t.unparsable = false
  | .storeFails i => ∀ t ∈ m.tasks[i]?, t.saves = false
  | _ => True

instance (m : CertManager C) (a : CertAction C) : Decidable (m.Clean a) := by
  unfold Clean
  split <;> infer_instance

omit [DecidableEq C] in
theorem not_unparsed {origin : Origin C} {cert : IssuedCertificate} {e : String}
    (hclean : m.Clean (.go i)) (ht : m.tasks[i]? = some (.order ⟨c, origin, .parsing cert⟩))
    (hparse : CertifiedKeys.parse cert.certPem cert.keyPem = .error e) : False := by
  have h : (!(CertifiedKeys.parse cert.certPem cert.keyPem).isOk) = false := hclean _ ht
  rw [hparse] at h
  cases h

omit [DecidableEq C] in
theorem not_unsaved {origin : Origin C} {cert : IssuedCertificate}
    (hclean : m.Clean (.storeFails i))
    (ht : m.tasks[i]? = some (.order ⟨c, origin, .saving cert⟩)) : False := by
  have h : true = false := hclean _ ht
  cases h

theorem Settles.step (h : Settles m c) (hclean : m.Clean a) (hstep : m.step K a = some m') :
    Settles m' c := by
  cases moved_of_step hstep with
  | waited => exact ⟨h.fresh, h.mark, h.state, h.waiters⟩
  | started hs => exact h.spawn (fun o => hs.not_order) fun caller owner => hs.not_waiting
  | quiet _ ht hq => exact h.quiet ht hq
  | opened ht hnone => exact h.opened ht hnone
  | announced ht ha => exact h.announced ht ha
  | advanced ht ha => exact h.advanced ht ha
  | ended ht he =>
    cases he with
    | unparsed hparse => exact absurd hparse fun hparse => not_unparsed hclean ht hparse
    | reported => exact h.reported ht
  | unsaved ht => exact absurd ht fun ht => not_unsaved hclean ht

/-- An order of a clean run ends when it has told how it went. -/
theorem Exits.reported (h : Exits m m' i c) (hclean : m.Clean a)
    (hstep : m.step K a = some m') : ∃ origin r,
      m.tasks[i]? = some (.order ⟨c, origin, .reporting r⟩) ∧
        m' = (m.report c r).exit i ⟨c, origin, .reporting r⟩ := by
  obtain ⟨o, hi, rfl⟩ := h.before
  have hkept {j : Nat} {t t' : CertTask C} {m₁ : CertManager C} (ht : m.tasks[j]? = some t)
      (hm : m' = m₁.put j t') (htasks : m₁.tasks = m.tasks)
      (hout : ∀ o, t = .order o → ∃ o', t' = .order o') : False := by
    have ht' : m₁.tasks[j]? = some t := by rw [htasks]; exact ht
    by_cases hj : i = j
    · subst hj
      obtain ⟨o', rfl⟩ := hout o (Option.some.inj (ht.symm.trans hi))
      exact h.now o' (by rw [hm, getElem?_put ht', if_pos rfl])
    · exact h.now o (by rw [hm, getElem?_put ht', if_neg hj, htasks]; exact hi)
  cases moved_of_step hstep with
  | waited => exact absurd hi (h.now o)
  | started => exact absurd (getElem?_spawn hi) (h.now o)
  | quiet _ ht hq =>
    refine absurd (hkept ht rfl rfl ?_) id
    rintro o rfl
    obtain ⟨o', rfl, _⟩ := hq.of_order
    exact ⟨o', rfl⟩
  | opened ht hnone => exact absurd (hkept ht rfl rfl fun o ho => by cases ho) id
  | announced ht ha => exact absurd (hkept ht rfl rfl fun o ho => absurd ho ha.not_order) id
  | advanced ht ha => exact absurd (hkept ht rfl ha.tasks fun o ho => ⟨_, rfl⟩) id
  | unsaved ht => exact absurd ht fun ht => not_unsaved hclean ht
  | @ended j c' origin phase m₁ ht he =>
    have hij : i = j := by
      by_contra hij
      refine h.now o ?_
      rw [exit, getElem?_put (t := .order ⟨c', origin, phase⟩), if_neg hij]
      · rw [show ({ m₁ with permits := m₁.permits + 1 } : CertManager C).tasks = m₁.tasks from rfl,
          he.tasks]
        exact hi
      · exact (congrArg (·[j]?) he.tasks).trans ht
    subst hij
    have ho : o = ⟨c', origin, phase⟩ := by
      have := Option.some.inj (hi.symm.trans ht)
      cases this
      rfl
    subst ho
    cases he with
    | unparsed hparse => exact absurd hparse fun hparse => not_unparsed hclean ht hparse
    | reported => exact ⟨origin, _, ht, rfl⟩

omit [CertifiedKeys] in
/-- A certificate without another order is past those that have not come to their end. -/
theorem Alone.not_has {o : Order C} {n : Nat} (h : m.Alone i c) (hi : m.tasks[i]? = some (.order o))
    (hn : n < o.phase.rank) : ¬ m.Has n c := by
  rintro ⟨j, o', hj, rfl, hrank⟩
  by_cases hij : j = i
  · subst hij
    cases hi.symm.trans hj
    exact absurd hrank (not_le.mpr hn)
  · have hlen := (List.getElem?_eq_some_iff.mp hj).1
    have hother := h j hlen hij _ hj
    simp [CertTask.orders] at hother

/-- An order that ends, with no other order of its certificate under way, leaves nothing behind. -/
theorem released {rows : C → Option IssuedCertificate} {now : Int} {actions : List (CertAction C)}
    (hrun : run K (init K rows now) actions = some m)
    (hmeets : Automaton.Meets (step K) Clean (init K rows now) (actions ++ [a]))
    (hstep : m.step K a = some m') (hexits : Exits m m' i c) (halone : m.Alone i c) :
    Released m' c := by
  obtain ⟨hactions, hlast⟩ := (Automaton.meets_append hrun).mp hmeets
  have hclean : m.Clean a := hlast.1
  have h : Settles m c := Automaton.run_invariant_of_meets
    (fun h hc hstep => Settles.step h hc hstep) hactions settles_init hrun
  have h' := h.step hclean hstep
  obtain ⟨origin, r, hi, rfl⟩ := hexits.reported hclean hstep
  have hpending : m.status c ≠ .pending := by
    intro hst
    exact absurd (h.fresh hst i _ hi rfl) (by simp [OrderPhase.rank])
  have hentry : ((m.report c r).exit i ⟨c, origin, .reporting r⟩).inFlight c = none :=
    inFlight_report
  constructor
  · exact hentry
  · intro j caller owner hj
    rcases h'.waiters j caller owner hj with hres | hin
    · exact hres
    · rw [hentry] at hin
      cases hin
  · have hmark : ((m.report c r).exit i ⟨c, origin, .reporting r⟩).ordering c = m.ordering c :=
      apart_report.ordering
    rw [hmark, ← Bool.not_eq_true]
    intro hmark
    rcases h.mark hmark with hst | hhas
    · exact hpending hst
    · exact halone.not_has hi (by simp [OrderPhase.rank]) hhas
  · have hstatus : ((m.report c r).exit i ⟨c, origin, .reporting r⟩).status c = m.status c :=
      apart_report.status
    rw [hstatus]
    have hsettled := fun hst => halone.not_has hi (by simp [OrderPhase.rank]) (h.state hst)
    cases hst : m.status c with
    | pending => exact absurd hst hpending
    | ordering => exact absurd (.inl hst) hsettled
    | renewing notAfter => exact absurd (.inr ⟨notAfter, hst⟩) hsettled
    | issued notAfter => exact .inl ⟨notAfter, rfl⟩
    | failed error nextRetry => exact .inr ⟨error, nextRetry, rfl⟩

end CertManager

/-! ## Two registrations -/

namespace CertManager.Sample

/-- A chain whose leaf expires at 90, and its key. -/
scoped instance certifiedKeys : CertifiedKeys where
  parse chain key := if chain = "chain" ∧ key = "key" then .ok (some 90)
    else .error "No certificates found in cert_pem"

def domains : Domains := ⟨"t.io", "a.io"⟩

def cert : IssuedCertificate := ⟨"chain", "key", 0, 90⟩

def fresh : CertManager ManagedCert := init domains.catalog (fun _ => none) 0

/-- Two services are registered before there is a certificate; the second waits for the order of the
first. -/
def registering : List (CertAction ManagedCert) :=
  [.ensure "a-b-c.t.io", .go 0, .go 0, .ensure "d-e-f.t.io", .go 1, .go 1, .go 0, .go 0, .go 0, .go 0,
    .answer 0 (.ok cert), .go 0]

def saved : List (CertAction ManagedCert) := registering ++ [.go 0, .go 0, .go 0]

theorem released_saved : ∃ m m', run domains.catalog fresh saved = some m ∧
    m.step domains.catalog (.go 0) = some m' ∧ Released m' domains.tunnelCert := by
  have hsaved : (run domains.catalog fresh saved).any (fun m => decide
      (m.tasks[0]? = some (.order ⟨domains.tunnelCert, .ensure .registration, .reporting (.ok ())⟩) ∧
        m.Alone 0 domains.tunnelCert ∧
        (m.step domains.catalog (.go 0)).any (fun m' => m'.tasks[0]? == some .ended) = true))
      = true := by decide +kernel
  obtain ⟨m, hrun, hm⟩ := (Option.any_eq_true _ _).mp hsaved
  obtain ⟨hi, halone, hstep⟩ := of_decide_eq_true hm
  obtain ⟨m', hstep, hend⟩ := (Option.any_eq_true _ _).mp hstep
  have hexits : Exits m m' 0 domains.tunnelCert := by
    refine ⟨⟨_, hi, rfl⟩, fun o ho => ?_⟩
    rw [eq_of_beq hend] at ho
    cases ho
  exact ⟨m, m', hrun, hstep, released hrun (by decide +kernel) hstep hexits halone⟩

/-- The store does not take the certificate: the second registration is not told. -/
theorem unreleased_unsaved : ∃ m m', run domains.catalog fresh registering = some m ∧
    m.step domains.catalog (.storeFails 0) = some m' ∧ Exits m m' 0 domains.tunnelCert ∧
    m.Alone 0 domains.tunnelCert ∧
    m'.tasks[1]? = some (.waiting .registration domains.tunnelCert 0) ∧
    ¬ Released m' domains.tunnelCert := by
  have hunsaved : (run domains.catalog fresh registering).any (fun m => decide
      (m.tasks[0]? = some (.order ⟨domains.tunnelCert, .ensure .registration, .saving cert⟩) ∧
        m.Alone 0 domains.tunnelCert ∧
        (m.step domains.catalog (.storeFails 0)).any (fun m' => decide
          (m'.tasks[0]? = some .ended ∧
            m'.tasks[1]? = some (.waiting .registration domains.tunnelCert 0) ∧
            m'.results 0 = none)) = true)) = true := by decide +kernel
  obtain ⟨m, hrun, hm⟩ := (Option.any_eq_true _ _).mp hunsaved
  obtain ⟨hi, halone, hstep⟩ := of_decide_eq_true hm
  obtain ⟨m', hstep, hm'⟩ := (Option.any_eq_true _ _).mp hstep
  obtain ⟨hend, hwait, hresult⟩ := of_decide_eq_true hm'
  refine ⟨m, m', hrun, hstep, ⟨⟨_, hi, rfl⟩, fun o ho => ?_⟩, halone, hwait, fun h => ?_⟩
  · rw [hend] at ho
    cases ho
  · have hres := h.waiters 1 _ _ hwait
    rw [hresult] at hres
    cases hres

end CertManager.Sample

end TunnelWeaver.Server
