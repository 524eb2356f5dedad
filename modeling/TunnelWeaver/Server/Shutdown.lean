import TunnelWeaver.Server.Folding

/-! Shutting the relay down (`server/mod.rs`, `scheduler.rs`, `MeteringTask` of `metering/mod.rs`).
The scheduler leaves its loop when the token is cancelled and runs the shutdown hooks, of which only
the one of metering does anything; the relay waits for the edges and for the scheduler, at most ten
seconds, and closes the store. Meanwhile connections go on reporting. What is in memory then is
lost: the minute in flight by design, and whatever was reported after the final flush. -/

namespace TunnelWeaver.Server.Shutdown

open Automaton

section
variable [BlobCodec]

/-- How far a run of the metering task is, or its shutdown hook, at a time in milliseconds. -/
inductive Job
  | tick (now : Int)
  | drain (now : Int)
  /-- `write_day_slots`. -/
  | write
  /-- `fold_finished_days` reads the days to fold. -/
  | read
  | fold (days : List Int)
  | sweep
  | done
  deriving DecidableEq

namespace Job

/-- The step of the metering manager. -/
def act : Job → Option Server.Act
  | tick now => some (.tick now)
  | drain now => some (.drain now)
  | write => some (.write 0)
  | fold (day :: _) => some (.foldDay day)
  | sweep => some .sweep
  | read | fold [] | done => none

def next (w : Meter) : Job → Option Job
  | tick now => some (drain now)
  | drain _ => some write
  | write => some read
  | read => some (fold (w.store.daysWithLiveRows w.today))
  | fold (_ :: days) => some (fold days)
  | fold [] => some sweep
  | sweep => some done
  | done => none

/-- Its buckets are drained. -/
def drained : Job → Bool
  | tick _ | drain _ => false
  | _ => true

/-- Its flush is written. -/
def written : Job → Bool
  | tick _ | drain _ | write => false
  | _ => true

end Job

/-- The loop of the scheduler. -/
inductive Loop
  /-- In the `select!`. -/
  | asleep
  /-- In `run_due`: the tick and the run of metering, if it is due, and how many `others` are due,
  with those still `running`. -/
  | due (tick : Option Int) (job : Job) (running others : Nat)
  /-- In the shutdown hook of metering. -/
  | closing (job : Job)
  | ended
  deriving DecidableEq

namespace Loop

/-- The run of the metering task, or its hook. -/
def job : Loop → Option Job
  | due _ job _ _ => some job
  | closing job => some job
  | asleep | ended => none

def withJob (job : Job) : Loop → Loop
  | due tick _ running others => due tick job running others
  | closing _ => closing job
  | l => l

/-- The hook has drained the memory. -/
def drained : Loop → Bool
  | closing job => job.drained
  | ended => true
  | _ => false

/-- The final flush is written. -/
def flushed : Loop → Bool
  | closing job => job.written
  | ended => true
  | _ => false

end Loop

/-- The final flush: the clock reading of the hook, and what was observed when it drained the
memory. -/
structure Final where
  now : Int
  observed : ServiceId → Int → Slots → Int

/-- `nextRun` is when metering is due, and `others` when the other tasks are. `final` is
bookkeeping. -/
structure World where
  meter : Meter
  nextRun : Int
  others : List Int := []
  loop : Loop := .asleep
  cancelledAt : Option Int := none
  /-- An edge, the control server or a DNS server is still running. -/
  edges : Bool := true
  closed : Bool := false
  final : Option Final := none

inductive Action
  /-- A connection, the console, or the clock. -/
  | meter (a : Server.Act)
  | cancel
  /-- The sleep is over. -/
  | wake
  | job
  | otherEnds
  /-- All due tasks have run; `nexts` is when the others are due next. -/
  | joined (nexts : List Int)
  | leave
  | hooksEnd
  | edgesEnd
  | drained
  | timeout

/-- What others than the metering task do. -/
def outside : Server.Act → Bool
  | .drain _ | .write _ | .fail _ | .foldDay _ | .sweep => false
  | _ => true

def drainTimeout : Int := 10000

/-- `MeteringTask::next_tick`, after a run. -/
def nextTick (period last now : Int) : Int := (max last now / period + 1) * period

namespace World

/-- Seconds of the clock. -/
def now (w : World) : Int := w.meter.clock / 1000

/-- The tick of metering, if it is due. -/
def dueTick (w : World) : Option Int := if w.nextRun ≤ w.now then some w.nextRun else none

/-- One atomic step of the metering task. -/
def stepJob (w : World) (job : Job) : Option World :=
  (job.next w.meter).bind fun next =>
    let loop := w.loop.withJob next
    let final := match job, w.loop with
      | .drain now, .closing _ => some ⟨now, w.meter.observed⟩
      | _, _ => w.final
    match job.act with
    | none => some { w with loop }
    | some a => (w.meter.step a).map fun meter => { w with meter, loop, final }

/-- A step, with the flush interval in seconds. -/
def step (period : Int) (w : World) (a : Action) : Option World :=
  if w.closed then none
  else match a with
  | .meter a => if outside a then (w.meter.step a).map fun meter => { w with meter } else none
  | .cancel => match w.cancelledAt with
    | none => some { w with cancelledAt := some w.meter.clock }
    | some _ => none
  | .wake => match w.loop with
    | .asleep =>
      let others := w.others.countP (· ≤ w.now)
      if w.dueTick = none ∧ others = 0 then none
      else some { w with
        others := w.others.filter (w.now < ·)
        loop := .due w.dueTick (w.dueTick.elim .done fun t => .tick (t * 1000)) others others }
    | _ => none
  | .job => w.loop.job.bind w.stepJob
  | .otherEnds => match w.loop with
    | .due tick job (running + 1) others => some { w with loop := .due tick job running others }
    | _ => none
  | .joined nexts => match w.loop with
    | .due tick .done 0 others =>
      if nexts.length = others then some { w with
        others := w.others ++ nexts
        nextRun := tick.elim w.nextRun fun t => nextTick period t w.now
        loop := .asleep }
      else none
    | _ => none
  | .leave => match w.loop, w.cancelledAt with
    | .asleep, some _ => some { w with loop := .closing (.tick (w.now * 1000)) }
    | _, _ => none
  | .hooksEnd => match w.loop with
    | .closing .done => some { w with loop := .ended }
    | _ => none
  | .edgesEnd => if w.cancelledAt.isSome then some { w with edges := false } else none
  | .drained => if !w.edges && w.loop = .ended then some { w with closed := true } else none
  | .timeout => match w.cancelledAt with
    | some t =>
      if t + drainTimeout ≤ w.meter.clock then some { w with closed := true } else none
    | none => none

def run (period : Int) (w : World) (l : List Action) : Option World :=
  Automaton.run (step period) w l

/-- The step of the metering manager that a step takes. -/
def acts (w : World) : Action → Option Server.Act
  | .meter a => some a
  | .job => w.loop.job.bind Job.act
  | _ => none

/-- The store writes what it is given. -/
def Stores (w : Meter) : Server.Act → Prop
  | .write flight => ∀ d ∈ w.flights[flight]?,
    (w.store.writeDaySlots (slotWrites d)).isOk = true
  | _ => True

instance (w : Meter) (a : Server.Act) : Decidable (Stores w a) := by
  cases a <;> unfold Stores <;> infer_instance

/-- Every write of the store succeeds, and metering conserves what it holds: no flush writes over a
stored minute or into a folded day, and no tick is older than an open-time mark. -/
def Sound (w : World) (a : Action) : Prop :=
  ∀ b ∈ w.acts a, w.meter.FoldGuard b ∧ Stores w.meter b

instance (w : World) (a : Action) : Decidable (w.Sound a) :=
  inferInstanceAs (Decidable (∀ b ∈ w.acts a, _))

/-- The relay before anything was observed. -/
structure Initial (w : World) : Prop where
  meter : w.meter.Initial
  loop : w.loop = .asleep
  final : w.final = none
  closed : w.closed = false

end World

/-! ## What is stored -/

section Meter

variable {v v' : Meter} {b : Server.Act} {s : ServiceId} {m : Int} {k : Slots}

/-- What is stored of a minute, or drained to be. -/
def stored (v : Meter) (s : ServiceId) (m : Int) (k : Slots) : Int :=
  v.store.slot s m k + v.store.folded s m k + v.flying s m k

theorem next_of_outside (h : outside b = true) (hstep : v.step b = some v') :
    (∃ service, b = .deleteService service) ∨ v'.store = v.store ∧ v'.flights = v.flights := by
  obtain ⟨u, hu, rfl⟩ := Meter.step_eq_some hstep
  cases b with
  | deleteService service => exact .inl ⟨service, rfl⟩
  | drain now => cases h
  | write flight => cases h
  | fail flight => cases h
  | foldDay day => cases h
  | sweep => cases h
  | advance ms =>
    cases hu
    exact .inr ⟨rfl, rfl⟩
  | observe o now =>
    obtain ⟨-, ⟨⟩⟩ := Option.ite_none_right_eq_some.mp hu
    exact .inr ⟨rfl, rfl⟩
  | registerStream stream service =>
    cases hu
    exact .inr ⟨rfl, rfl⟩
  | unregisterStream stream =>
    cases hu
    exact .inr ⟨rfl, rfl⟩
  | registerService service =>
    cases hu
    exact .inr ⟨rfl, rfl⟩
  | unregisterService service =>
    cases hu
    exact .inr ⟨rfl, rfl⟩
  | tick now =>
    obtain ⟨-, ⟨⟩⟩ := Option.ite_none_right_eq_some.mp hu
    exact .inr ⟨rfl, rfl⟩

/-- Storing, folding and sweeping leave what is in memory and what was observed. -/
theorem mem_of_step (hb : b = .write 0 ∨ (∃ day, b = .foldDay day) ∨ b = .sweep ∨
      ∃ service, b = .deleteService service) (hs : World.Stores v b)
    (hstep : v.step b = some v') :
    v'.mem = v.mem ∧ ∀ s m k, v'.observed s m k = v.observed s m k := by
  obtain ⟨u, hu, rfl⟩ := Meter.step_eq_some hstep
  rcases hb with rfl | ⟨day, rfl⟩ | rfl | ⟨service, rfl⟩
  · obtain ⟨d, hd, rfl⟩ := Option.map_eq_some_iff.mp hu
    have hok := hs d hd
    cases hstore : v.store.writeDaySlots (slotWrites d) with
    | error e =>
      rw [hstore] at hok
      cases hok
    | ok store => exact ⟨by simp [Meter.finish, hstore], fun _ _ _ => add_zero _⟩
  · obtain ⟨-, ⟨⟩⟩ := Option.ite_none_right_eq_some.mp hu
    exact ⟨rfl, fun _ _ _ => add_zero _⟩
  · cases hu
    exact ⟨rfl, fun _ _ _ => add_zero _⟩
  · cases hu
    exact ⟨rfl, fun _ _ _ => add_zero _⟩

/-- A step that leaves the memory leaves what is stored. -/
theorem stored_of_mem (h : v.Folds) (h' : v'.Folds) (hservices : s ∈ v'.store.services)
    (hservices' : s ∈ v.store.services) (hday : v'.cutoffDay ≤ dayOf m)
    (hday' : v.cutoffDay ≤ dayOf m) (hmem : v'.mem = v.mem)
    (hobserved : v'.observed s m k = v.observed s m k) : stored v' s m k = stored v s m k := by
  have htotal := (h.accounted hservices' hday' k).total
  have htotal' := (h'.accounted hservices hday k).total
  rw [hmem, hobserved] at htotal'
  simp only [stored]
  omega

/-- Only the drain of a flush adds to what is stored or drained. -/
theorem stored_of_step (h : v.Folds) (hg : v.FoldGuard b) (hs : World.Stores v b)
    (hb : outside b = true ∨ b = .write 0 ∨ (∃ day, b = .foldDay day) ∨ b = .sweep)
    (hstep : v.step b = some v') (hservices : s ∈ v'.store.services)
    (hday : v'.cutoffDay ≤ dayOf m) : stored v' s m k = stored v s m k := by
  have hservices' := Meter.services_of_step hstep hservices
  have hday' := (Meter.cutoffDay_le_of_step hstep).trans hday
  have hmoves (hb : b = .write 0 ∨ (∃ day, b = .foldDay day) ∨ b = .sweep ∨
      ∃ service, b = .deleteService service) : stored v' s m k = stored v s m k := by
    obtain ⟨hmem, hobserved⟩ := mem_of_step hb hs hstep
    exact stored_of_mem h (h.step hg hstep) hservices hservices' hday hday' hmem (hobserved ..)
  rcases hb with hb | hb | hb | hb
  · rcases next_of_outside hb hstep with hb | ⟨hstore, hflights⟩
    · exact hmoves (.inr (.inr (.inr hb)))
    · rw [stored, stored, Meter.flying, Meter.flying, hstore, hflights]
  · exact hmoves (.inl hb)
  · exact hmoves (.inr (.inl hb))
  · exact hmoves (.inr (.inr (.inl hb)))

/-- After a drain everything observed of a complete minute is stored or drained. -/
theorem stored_of_drain {now : Int} (h : v.Folds) (hg : v.FoldGuard (.drain now))
    (hstep : v.step (.drain now) = some v') (hservices : s ∈ v'.store.services)
    (hday : v'.cutoffDay ≤ dayOf m) (hm : m < minuteOf now) :
    stored v' s m k = v.observed s m k := by
  have htotal := ((h.step hg hstep).accounted hservices hday k).total
  obtain ⟨u, hu, rfl⟩ := Meter.step_eq_some hstep
  obtain ⟨-, ⟨⟩⟩ := Option.ite_none_right_eq_some.mp hu
  have hheld : (v.mem.drain now).held s m k = 0 := by
    simp only [Metering.held, Metering.drain, countIn, Map.lookup_filterMap]
    cases v.mem.buckets.lookup (s, m) with
    | none => exact Bucket.count_default k
    | some b => simp [hm]
  have hreports : v.reports (.drain now) s m k = 0 := by cases k <;> rfl
  simp only [stored] at htotal ⊢
  rw [hheld, hreports] at htotal
  omega

end Meter

/-! ## Runs -/

variable {period : Int} {w w' w₀ : World} {a : Action} {l : List Action} {job : Job}

omit [BlobCodec] in
theorem Loop.job_withJob {l : Loop} (h : l.job = some job) (job' : Job) :
    (l.withJob job').job = some job' := by
  cases l with
  | asleep => cases h
  | due tick j running others => rfl
  | closing j => rfl
  | ended => cases h

omit [BlobCodec] in
theorem Loop.drained_withJob {l : Loop} (h : l.job = some job) (job' : Job)
    (hdrained : job'.drained = job.drained) : (l.withJob job').drained = l.drained := by
  cases l with
  | asleep => rfl
  | due tick j running others => rfl
  | closing j =>
    cases h
    exact hdrained
  | ended => rfl

/-- What the final flush drained is stored, or in the one copy that is to be stored. -/
structure Tracked (w : World) : Prop where
  folds : w.meter.Folds
  idle : w.loop.job ≠ some .write → w.meter.flights = []
  flight : w.loop.job = some .write → ∃ d, w.meter.flights = [d]
  final : w.loop.drained = true → ∃ f, w.final = some f ∧ ∀ s ∈ w.meter.store.services,
    ∀ m < minuteOf f.now, w.meter.cutoffDay ≤ dayOf m → ∀ k,
      stored w.meter s m k = f.observed s m k

theorem World.Initial.tracked (h : w.Initial) : Tracked w where
  folds := h.meter.folds
  idle _ := h.meter.flights
  flight hjob := by
    rw [h.loop] at hjob
    cases hjob
  final hdrained := by
    rw [h.loop] at hdrained
    cases hdrained

/-- A step that leaves the metering manager. -/
theorem Tracked.frame (h : Tracked w) (hmeter : w'.meter = w.meter) (hfinal : w'.final = w.final)
    (hjob : w'.loop.job = some .write ↔ w.loop.job = some .write)
    (hdrained : w'.loop.drained = true → w.loop.drained = true) : Tracked w' where
  folds := by
    rw [hmeter]
    exact h.folds
  idle hne := by
    rw [hmeter]
    exact h.idle (mt hjob.mpr hne)
  flight hw := by
    rw [hmeter]
    exact h.flight (hjob.mp hw)
  final hd := by
    rw [hmeter, hfinal]
    exact h.final (hdrained hd)

/-- A step of the metering manager that is not a drain. -/
theorem Tracked.of_step {b : Server.Act} {meter : Meter} {loop : Loop} (h : Tracked w)
    (hg : w.meter.FoldGuard b) (hs : World.Stores w.meter b)
    (hb : outside b = true ∨ b = .write 0 ∨ (∃ day, b = .foldDay day) ∨ b = .sweep)
    (hstep : w.meter.step b = some meter)
    (hidle : loop.job ≠ some .write → meter.flights = [])
    (hflight : loop.job = some .write → ∃ d, meter.flights = [d])
    (hdrained : loop.drained = w.loop.drained) : Tracked { w with meter, loop } where
  folds := h.folds.step hg hstep
  idle := hidle
  flight := hflight
  final hd := by
    obtain ⟨f, hf, hstored⟩ := h.final (hdrained ▸ hd)
    refine ⟨f, hf, fun s hservices m hm hday k => ?_⟩
    rw [stored_of_step h.folds hg hs hb hstep hservices hday]
    exact hstored s (Meter.services_of_step hstep hservices) m hm
      ((Meter.cutoffDay_le_of_step hstep).trans hday) k

theorem flights_of_step {v v' : Meter} {b : Server.Act}
    (hb : outside b = true ∨ (∃ day, b = .foldDay day) ∨ b = .sweep) (hstep : v.step b = some v') :
    v'.flights = v.flights := by
  rcases hb with hb | ⟨day, rfl⟩ | rfl
  · rcases next_of_outside hb hstep with ⟨service, rfl⟩ | ⟨-, hflights⟩
    · obtain ⟨u, hu, rfl⟩ := Meter.step_eq_some hstep
      cases hu
      rfl
    · exact hflights
  · obtain ⟨u, hu, rfl⟩ := Meter.step_eq_some hstep
    obtain ⟨-, ⟨⟩⟩ := Option.ite_none_right_eq_some.mp hu
    rfl
  · obtain ⟨u, hu, rfl⟩ := Meter.step_eq_some hstep
    cases hu
    rfl

theorem flights_of_drain {v v' : Meter} {now : Int} (hstep : v.step (.drain now) = some v') :
    v'.flights = v.flights ++ [v.mem.drained now] := by
  obtain ⟨u, hu, rfl⟩ := Meter.step_eq_some hstep
  obtain ⟨-, ⟨⟩⟩ := Option.ite_none_right_eq_some.mp hu
  rfl

theorem flights_of_write {v v' : Meter} {d : Map (ServiceId × Int) Bucket}
    (hd : v.flights = [d]) (hstep : v.step (.write 0) = some v') : v'.flights = [] := by
  obtain ⟨u, hu, rfl⟩ := Meter.step_eq_some hstep
  obtain ⟨d', -, rfl⟩ := Option.map_eq_some_iff.mp hu
  rcases v.finish_cases 0 d' with he | he <;> rw [he] <;> simp [hd]

theorem Tracked.stepJob (h : Tracked w) (hjob : w.loop.job = some job)
    (hsound : ∀ b ∈ job.act, w.meter.FoldGuard b ∧ World.Stores w.meter b)
    (hstep : w.stepJob job = some w') : Tracked w' := by
  obtain ⟨next, hnext, hstep⟩ := Option.bind_eq_some_iff.mp hstep
  have hloop := Loop.job_withJob hjob next
  have hnone (hne : job ≠ .write) : w.meter.flights = [] :=
    h.idle fun hw => hne (Option.some.inj (hjob.symm.trans hw))
  cases job with
  | tick now =>
    cases hnext
    obtain ⟨hg, hs⟩ := hsound _ rfl
    obtain ⟨meter, hmeter, rfl⟩ := Option.map_eq_some_iff.mp hstep
    refine h.of_step hg hs (.inl rfl) hmeter ?_ ?_ (Loop.drained_withJob hjob _ rfl)
    · exact fun _ => (flights_of_step (.inl rfl) hmeter).trans (hnone (by simp))
    · exact fun hw => absurd (hloop.symm.trans hw) (by simp)
  | drain now =>
    cases hnext
    obtain ⟨hg, -⟩ := hsound _ rfl
    obtain ⟨meter, hmeter, rfl⟩ := Option.map_eq_some_iff.mp hstep
    have hflights := flights_of_drain hmeter
    rw [hnone (by simp), List.nil_append] at hflights
    refine ⟨h.folds.step hg hmeter, fun hne => absurd hloop hne, fun _ => ⟨_, hflights⟩, ?_⟩
    cases hclosing : w.loop with
    | closing j =>
      intro _
      refine ⟨⟨now, w.meter.observed⟩, rfl, fun s hservices m hm hday k => ?_⟩
      exact stored_of_drain h.folds hg hmeter hservices hday hm
    | asleep =>
      rw [hclosing] at hjob
      cases hjob
    | due tick j running others =>
      intro hd
      cases hd
    | ended =>
      rw [hclosing] at hjob
      cases hjob
  | write =>
    cases hnext
    obtain ⟨hg, hs⟩ := hsound _ rfl
    obtain ⟨meter, hmeter, rfl⟩ := Option.map_eq_some_iff.mp hstep
    obtain ⟨d, hd⟩ := h.flight hjob
    refine h.of_step hg hs (.inr (.inl rfl)) hmeter ?_ ?_ (Loop.drained_withJob hjob _ rfl)
    · exact fun _ => flights_of_write hd hmeter
    · exact fun hw => absurd (hloop.symm.trans hw) (by simp)
  | read =>
    cases hnext
    cases hstep
    have hdrained := Loop.drained_withJob hjob
      (.fold (w.meter.store.daysWithLiveRows w.meter.today)) rfl
    refine h.frame rfl rfl ?_ fun hd => hdrained.symm.trans hd
    rw [hloop, hjob]
    simp
  | fold days =>
    cases days with
    | nil =>
      cases hnext
      cases hstep
      have hdrained := Loop.drained_withJob hjob .sweep rfl
      refine h.frame rfl rfl ?_ fun hd => hdrained.symm.trans hd
      rw [hloop, hjob]
      simp
    | cons day days =>
      cases hnext
      obtain ⟨hg, hs⟩ := hsound _ rfl
      obtain ⟨meter, hmeter, rfl⟩ := Option.map_eq_some_iff.mp hstep
      refine h.of_step hg hs (.inr (.inr (.inl ⟨day, rfl⟩))) hmeter ?_ ?_
        (Loop.drained_withJob hjob _ rfl)
      · exact fun _ => (flights_of_step (.inr (.inl ⟨day, rfl⟩)) hmeter).trans (hnone (by simp))
      · exact fun hw => absurd (hloop.symm.trans hw) (by simp)
  | sweep =>
    cases hnext
    obtain ⟨hg, hs⟩ := hsound _ rfl
    obtain ⟨meter, hmeter, rfl⟩ := Option.map_eq_some_iff.mp hstep
    refine h.of_step hg hs (.inr (.inr (.inr rfl))) hmeter ?_ ?_ (Loop.drained_withJob hjob _ rfl)
    · exact fun _ => (flights_of_step (.inr (.inr rfl)) hmeter).trans (hnone (by simp))
    · exact fun hw => absurd (hloop.symm.trans hw) (by simp)
  | done => cases hnext

theorem Tracked.step (h : Tracked w) (hsound : w.Sound a) (hstep : w.step period a = some w') :
    Tracked w' := by
  unfold World.step at hstep
  split at hstep
  · cases hstep
  cases a with
  | meter b =>
    dsimp only at hstep
    split at hstep
    · rename_i hb
      obtain ⟨meter, hmeter, rfl⟩ := Option.map_eq_some_iff.mp hstep
      obtain ⟨hg, hs⟩ := hsound b rfl
      have hflights := flights_of_step (.inl hb) hmeter
      refine h.of_step hg hs (.inl hb) hmeter (fun hne => hflights.trans (h.idle hne)) ?_ rfl
      intro hw
      obtain ⟨d, hd⟩ := h.flight hw
      exact ⟨d, hflights.trans hd⟩
    · cases hstep
  | cancel =>
    dsimp only at hstep
    split at hstep
    · cases hstep
      exact h.frame rfl rfl Iff.rfl id
    · cases hstep
  | wake =>
    dsimp only at hstep
    split at hstep
    · rename_i hasleep
      split at hstep
      · cases hstep
      · cases hstep
        refine h.frame rfl rfl ?_ fun hd => absurd hd Bool.false_ne_true
        rw [hasleep]
        cases w.dueTick <;> simp [Loop.job]
    · cases hstep
  | job =>
    obtain ⟨job, hjob, hstep⟩ := Option.bind_eq_some_iff.mp hstep
    refine h.stepJob hjob (fun b hb => hsound b ?_) hstep
    rw [World.acts, hjob]
    exact hb
  | otherEnds =>
    dsimp only at hstep
    split at hstep
    · rename_i hdue
      cases hstep
      refine h.frame rfl rfl ?_ fun hd => absurd hd Bool.false_ne_true
      rw [hdue]
      rfl
    · cases hstep
  | joined nexts =>
    dsimp only at hstep
    split at hstep
    · rename_i hdue
      split at hstep
      · cases hstep
        refine h.frame rfl rfl ?_ fun hd => absurd hd Bool.false_ne_true
        rw [hdue]
        simp [Loop.job]
      · cases hstep
    · cases hstep
  | leave =>
    dsimp only at hstep
    split at hstep
    · rename_i hasleep _
      cases hstep
      refine h.frame rfl rfl ?_ fun hd => absurd hd Bool.false_ne_true
      rw [hasleep]
      simp [Loop.job]
    · cases hstep
  | hooksEnd =>
    dsimp only at hstep
    split at hstep
    · rename_i hclosing
      cases hstep
      refine h.frame rfl rfl ?_ fun _ => ?_
      · rw [hclosing]
        simp [Loop.job]
      · rw [hclosing]
        rfl
    · cases hstep
  | edgesEnd =>
    dsimp only at hstep
    split at hstep
    · cases hstep
      exact h.frame rfl rfl Iff.rfl id
    · cases hstep
  | drained =>
    dsimp only at hstep
    split at hstep
    · cases hstep
      exact h.frame rfl rfl Iff.rfl id
    · cases hstep
  | timeout =>
    dsimp only at hstep
    split at hstep
    · split at hstep
      · cases hstep
        exact h.frame rfl rfl Iff.rfl id
      · cases hstep
    · cases hstep

omit [BlobCodec] in
theorem Loop.flushed_spec {l : Loop} (h : l.flushed = true) :
    l.drained = true ∧ l.job ≠ some .write := by
  cases l with
  | asleep => cases h
  | due tick job running others => cases h
  | closing job =>
    cases job with
    | tick now => cases h
    | drain now => cases h
    | write => cases h
    | _ => exact ⟨rfl, by simp [Loop.job]⟩
  | ended => exact ⟨rfl, by simp [Loop.job]⟩

/-- What the final flush drained is stored once it is written. -/
theorem Tracked.stored (h : Tracked w) (hflushed : w.loop.flushed = true) :
    ∃ f, w.final = some f ∧ ∀ s ∈ w.meter.store.services, ∀ m < minuteOf f.now,
      w.meter.cutoffDay ≤ dayOf m → ∀ k,
        w.meter.store.slot s m k + w.meter.store.folded s m k = f.observed s m k := by
  obtain ⟨hdrained, hjob⟩ := Loop.flushed_spec hflushed
  obtain ⟨f, hf, hstored⟩ := h.final hdrained
  refine ⟨f, hf, fun s hs m hm hday k => ?_⟩
  have hflying : w.meter.flying s m k = 0 := by
    rw [Meter.flying, h.idle hjob]
    rfl
  have htotal := hstored s hs m hm hday k
  rwa [Shutdown.stored, hflying, add_zero] at htotal

/-- When the store closes, because all has drained or because the deadline strikes after the final
flush, everything that was observed of complete minutes when that flush drained the memory is
stored. -/
theorem shutdown_stores (h : w₀.Initial) (hsound : Meets (World.step period) World.Sound w₀ l)
    (hrun : w₀.run period l = some w)
    (ha : a = .drained ∨ a = .timeout ∧ w.loop.flushed = true)
    (hclose : w.step period a = some w') :
    ∃ f, w'.final = some f ∧ ∀ s ∈ w'.meter.store.services, ∀ m < minuteOf f.now,
      w'.meter.cutoffDay ≤ dayOf m → ∀ k,
        w'.meter.store.slot s m k + w'.meter.store.folded s m k = f.observed s m k := by
  have htracked : Tracked w :=
    run_invariant_of_meets (fun h hs hstep => h.step hs hstep) hsound h.tracked hrun
  have hclosed : w' = { w with closed := true } ∧ w.loop.flushed = true := by
    unfold World.step at hclose
    split at hclose
    · cases hclose
    rcases ha with rfl | ⟨rfl, hflushed⟩
    · dsimp only at hclose
      split at hclose
      · rename_i hended
        cases hclose
        simp only [Bool.and_eq_true, decide_eq_true_eq] at hended
        exact ⟨rfl, by rw [hended.2]; rfl⟩
      · cases hclose
    · dsimp only at hclose
      split at hclose
      · split at hclose
        · cases hclose
          exact ⟨rfl, hflushed⟩
        · cases hclose
      · cases hclose
  obtain ⟨rfl, hflushed⟩ := hclosed
  exact htracked.stored hflushed

end

end TunnelWeaver.Server.Shutdown

namespace TunnelWeaver.Server

open Automaton (Meets)
open Shutdown (Action World)

namespace Sample

/-- The relay at its start. -/
def started : World := { meter := start, nextRun := 60 }

theorem started_initial : started.Initial := ⟨start_initial, rfl, rfl, rfl⟩

/-- From the cancellation of the token to the end of the drain. -/
def shutdown : List Action :=
  [.cancel, .leave, .job, .job, .job, .job, .job, .job, .hooksEnd, .edgesEnd]

def report : Action := .meter (.observe (.visitorServiceBytes 1 10 0) 0)

/-- The minute of the report is over when the relay shuts down. -/
def minuteLater : List Action := report :: .meter (.advance 60000) :: shutdown

end Sample

open Sample in
theorem shutdown_stores_minute : ∃ w w', started.run 60 minuteLater = some w ∧
    w.step 60 .drained = some w' ∧ ∃ f, w'.final = some f ∧ f.observed 1 0 .bytesIn = 10 ∧
      w'.meter.store.slot 1 0 .bytesIn + w'.meter.store.folded 1 0 .bytesIn =
        f.observed 1 0 .bytesIn := by
  have hsound : Meets (World.step 60) World.Sound started minuteLater := by decide +kernel
  obtain ⟨w, hrun, hw⟩ := (Option.any_eq_true
    (fun w : World => (w.step 60 .drained).any fun w' : World =>
      w'.final.any fun f : Shutdown.Final =>
        decide (0 < minuteOf f.now) && decide (f.observed 1 0 .bytesIn = 10) &&
        decide (1 ∈ w'.meter.store.services) && decide (w'.meter.cutoffDay ≤ 0))
    (started.run 60 minuteLater)).mp (by decide +kernel)
  obtain ⟨w', hclose, hw'⟩ := (Option.any_eq_true ..).mp hw
  obtain ⟨f, hf, hfacts⟩ := (Option.any_eq_true ..).mp hw'
  simp only [Bool.and_eq_true, decide_eq_true_eq] at hfacts
  obtain ⟨f', hf', hstored⟩ :=
    Shutdown.shutdown_stores started_initial hsound hrun (.inl rfl) hclose
  obtain rfl := Option.some.inj (hf.symm.trans hf')
  exact ⟨w, w', hrun, hclose, f, hf, hfacts.1.1.2,
    hstored 1 hfacts.1.2 0 hfacts.1.1.1 hfacts.2 .bytesIn⟩

open Sample in
/-- What was observed in the minute in flight is gone. -/
theorem shutdown_drops_minute : ¬∀ (period : Int) (w₀ w w' : World) (l : List Action), w₀.Initial →
    Meets (World.step period) World.Sound w₀ l → w₀.run period l = some w →
    w.step period .drained = some w' → ∀ s ∈ w'.meter.store.services, ∀ m,
      w'.meter.cutoffDay ≤ dayOf m → ∀ k,
        w'.meter.store.slot s m k + w'.meter.store.folded s m k = w'.meter.observed s m k := by
  intro h
  have hsound : Meets (World.step 60) World.Sound started (report :: shutdown) := by decide +kernel
  obtain ⟨w, hrun, hw⟩ := (Option.any_eq_true
    (fun w : World => (w.step 60 .drained).any fun w' : World =>
      decide (1 ∈ w'.meter.store.services) && decide (w'.meter.cutoffDay ≤ 0) &&
        decide (w'.meter.store.slot 1 0 .bytesIn + w'.meter.store.folded 1 0 .bytesIn ≠
          w'.meter.observed 1 0 .bytesIn))
    (started.run 60 (report :: shutdown))).mp (by decide +kernel)
  obtain ⟨w', hclose, hw'⟩ := (Option.any_eq_true ..).mp hw
  simp only [Bool.and_eq_true, decide_eq_true_eq] at hw'
  exact hw'.2 (h 60 started w w' _ started_initial hsound hrun hclose 1 hw'.1.1 0 hw'.1.2 .bytesIn)

end TunnelWeaver.Server
