import TapTunnel.Framework.Transition

namespace TapTunnel.Tunnel

open Framework

/-- The tasks whose handles a tunnel keeps, in the order of `task_handles`. -/
inductive Task
  | ipcReader
  | ipcWriter
  | stack
  deriving DecidableEq, Repr

inductive Effect
  | signalDead
  | kill
  | wait
  | abort (task : Task)
  deriving DecidableEq, Repr

inductive Process
  | running
  | exited
  | reaped
  deriving DecidableEq, Repr

/-- `Child::kill`, which does nothing to a process that has ended. -/
def Process.kill : Process → Process
  | .running => .exited
  | p => p

inductive ClosePc
  | swap
  | signal
  | lockChild
  | kill
  | wait
  | clear
  | lockTasks
  | drain
  | done
  deriving DecidableEq, Repr

/-- A call of `close`, on one of the handles or from the `Drop` of the shared part. -/
structure CloseCall where
  handle : Option Nat
  pc : ClosePc
  deriving DecidableEq, Repr

/-- `handles` says which clones are still held; `log` only records history. -/
structure Inner where
  handles : List Bool
  calls : List CloseCall
  closed : Bool
  ipcDead : Bool
  childLocked : Bool
  proxyChild : Option Process
  tasksLocked : Bool
  taskHandles : List Task
  log : List Effect
  deriving DecidableEq, Repr

/-- `run` is the next step of a call, the last two are not steps of a call. -/
inductive Action
  | clone (h : Nat)
  | close (h : Nat)
  | drop (h : Nat)
  | run (i : Nat)
  | childExits
  | ipcDies
  deriving DecidableEq, Repr

namespace Inner

/-- Without a child process it is a tunnel of `connect_to`. -/
def init (proxy : Bool) : Inner where
  handles := [true]
  calls := []
  closed := false
  ipcDead := false
  childLocked := false
  proxyChild := if proxy then some .running else none
  tasksLocked := false
  taskHandles := [.ipcReader, .ipcWriter, .stack]
  log := []

def goto (t : Inner) (i : Nat) (c : CloseCall) (pc : ClosePc) : Inner :=
  { t with calls := t.calls.set i { c with pc := pc } }

/-- The next step of `TunnelInner::close`; `none` while it waits for a lock or for the child. -/
def closeStep (i : Nat) (c : CloseCall) (t : Inner) : Option Inner :=
  match c.pc with
  | .swap => some ({ t with closed := true }.goto i c (if t.closed then .done else .signal))
  | .signal =>
    some ({ t with ipcDead := true, log := t.log ++ [Effect.signalDead] }.goto i c .lockChild)
  | .lockChild =>
    if t.childLocked then none
    else some ({ t with childLocked := true }.goto i c
      (if t.proxyChild.isSome then .kill else .clear))
  | .kill =>
    some ({ t with
      proxyChild := t.proxyChild.map .kill
      log := t.log ++ [Effect.kill] }.goto i c .wait)
  | .wait =>
    if t.proxyChild = some .running then none
    else some ({ t with
      proxyChild := t.proxyChild.map fun _ => .reaped
      log := t.log ++ [Effect.wait] }.goto i c .clear)
  | .clear => some ({ t with proxyChild := none, childLocked := false }.goto i c .lockTasks)
  | .lockTasks =>
    if t.tasksLocked then none else some ({ t with tasksLocked := true }.goto i c .drain)
  | .drain =>
    match t.taskHandles with
    | [] => some ({ t with tasksLocked := false }.goto i c .done)
    | task::rest =>
      some ({ t with taskHandles := rest, log := t.log ++ [Effect.abort task] }.goto i c .drain)
  | .done => none

/-- No call on this handle is under way: a handle is borrowed for as long as a call takes. -/
def Free (t : Inner) (h : Nat) : Prop := ∀ c ∈ t.calls, c.handle = some h → c.pc = .done

instance (t : Inner) (h : Nat) : Decidable (t.Free h) :=
  inferInstanceAs (Decidable (∀ c ∈ t.calls, c.handle = some h → c.pc = .done))

/-- Whoever drops the last handle drops the shared part, and so calls `close`. -/
def step : Action → Inner → Option Inner
  | .clone h, t =>
    if t.handles[h]? = some true then some { t with handles := t.handles ++ [true] } else none
  | .close h, t =>
    if t.handles[h]? = some true then some { t with calls := t.calls ++ [⟨some h, .swap⟩] }
    else none
  | .drop h, t =>
    if t.handles[h]? = some true ∧ t.Free h then
      let handles := t.handles.set h false
      some { t with
        handles := handles
        calls := if true ∈ handles then t.calls else t.calls ++ [⟨none, .swap⟩] }
    else none
  | .run i, t => (t.calls[i]?).bind fun c => t.closeStep i c
  | .childExits, t =>
    if t.proxyChild = some .running then some { t with proxyChild := some .exited } else none
  | .ipcDies, t => some { t with ipcDead := true }

end Inner

def endChild (proxy : Bool) : List Effect :=
  match proxy with
  | true => [.kill, .wait]
  | false => []

/-- What one call of `close` on its own does to a tunnel with or without a child process. -/
def script (proxy : Bool) : List Effect :=
  .signalDead::endChild proxy ++ [.abort .ipcReader, .abort .ipcWriter, .abort .stack]

namespace Inner

variable {proxy : Bool} {t t' : Inner} {c : CloseCall} {i : Nat}

def todo (t : Inner) : ClosePc → List Effect
  | .swap | .done => []
  | .signal => .signalDead::endChild t.proxyChild.isSome ++ t.taskHandles.map .abort
  | .lockChild => endChild t.proxyChild.isSome ++ t.taskHandles.map .abort
  | .kill => .kill::.wait::t.taskHandles.map .abort
  | .wait => .wait::t.taskHandles.map .abort
  | .clear | .lockTasks | .drain => t.taskHandles.map .abort

/-- What the call that cleans up has done and has before it is the work of one call. -/
structure Cleaning (proxy : Bool) (t : Inner) (pc : ClosePc) : Prop where
  begun : pc ≠ .swap
  log : t.log ++ t.todo pc = script proxy
  child : t.childLocked = decide (pc = .kill ∨ pc = .wait ∨ pc = .clear)
  tasks : t.tasksLocked = decide (pc = .drain)
  killed : pc = .wait → t.proxyChild ≠ some .running
  slot : pc = .lockTasks ∨ pc = .drain ∨ pc = .done → t.proxyChild = none
  handles : pc = .done → t.taskHandles = []
  first : pc = .signal → t.log = []
  dead : pc ≠ .signal → t.ipcDead = true

theorem Cleaning.init (proxy : Bool) : Cleaning proxy (init proxy) .signal := by
  cases proxy <;> exact ⟨by decide, rfl, rfl, rfl, by simp, by simp, by simp, fun _ => rfl, by simp⟩

theorem goto_same (t : Inner) (i : Nat) (c : CloseCall) (pc : ClosePc) :
    (t.goto i c pc).closed = t.closed ∧ (t.goto i c pc).handles = t.handles ∧
      (t.goto i c pc).calls = t.calls.set i { c with pc := pc } := ⟨rfl, rfl, rfl⟩

theorem Cleaning.closeStep (h : Cleaning proxy t c.pc) (hs : t.closeStep i c = some t') :
    ∃ pc, Cleaning proxy t' pc ∧ t'.closed = t.closed ∧ t'.handles = t.handles ∧
      t'.calls = t.calls.set i { c with pc := pc } := by
  unfold Inner.closeStep at hs
  generalize c.pc = pc at h hs
  have hlog := h.log
  have hchild := h.child
  have htasks := h.tasks
  cases pc with
  | swap => exact absurd rfl h.begun
  | signal =>
    obtain rfl := Option.some.inj hs
    refine ⟨.lockChild, ⟨by simp, ?_, hchild, htasks, by simp, by simp, by simp, by simp,
      fun _ => rfl⟩, goto_same _ i c _⟩
    simpa [todo, goto] using hlog
  | lockChild =>
    have hdead := h.dead (by simp)
    simp only at hs
    split_ifs at hs with hfree hsome
    · obtain rfl := Option.some.inj hs
      refine ⟨.kill, ⟨by simp, ?_, rfl, htasks, by simp, by simp, by simp, by simp, fun _ => hdead⟩,
        goto_same _ i c _⟩
      simpa [todo, goto, hsome, endChild] using hlog
    · obtain rfl := Option.some.inj hs
      refine ⟨.clear, ⟨by simp, ?_, rfl, htasks, by simp, by simp, by simp, by simp,
        fun _ => hdead⟩, goto_same _ i c _⟩
      simpa [todo, goto, hsome, endChild] using hlog
  | kill =>
    obtain rfl := Option.some.inj hs
    refine ⟨.wait, ⟨by simp, ?_, hchild, htasks, fun _ => ?_, by simp, by simp, by simp,
      fun _ => h.dead (by simp)⟩, goto_same _ i c _⟩
    · simpa [todo, goto] using hlog
    · simp only [goto]
      cases t.proxyChild with
      | none => simp
      | some p => cases p <;> simp [Process.kill]
  | wait =>
    simp only at hs
    split_ifs at hs with hrun
    obtain rfl := Option.some.inj hs
    refine ⟨.clear, ⟨by simp, ?_, hchild, htasks, by simp, by simp, by simp, by simp,
      fun _ => h.dead (by simp)⟩, goto_same _ i c _⟩
    simpa [todo, goto] using hlog
  | clear =>
    obtain rfl := Option.some.inj hs
    refine ⟨.lockTasks, ⟨by simp, ?_, rfl, htasks, by simp, fun _ => rfl, by simp, by simp,
      fun _ => h.dead (by simp)⟩, goto_same _ i c _⟩
    simpa [todo, goto] using hlog
  | lockTasks =>
    simp only at hs
    split_ifs at hs with hfree
    obtain rfl := Option.some.inj hs
    refine ⟨.drain, ⟨by simp, ?_, hchild, rfl, by simp, fun _ => h.slot (by simp), by simp, by simp,
      fun _ => h.dead (by simp)⟩, goto_same _ i c _⟩
    simpa [todo, goto] using hlog
  | drain =>
    have hslot := h.slot (by simp)
    have hdead := h.dead (by simp)
    simp only at hs
    split at hs
    · next hnil =>
      obtain rfl := Option.some.inj hs
      refine ⟨.done, ⟨by simp, ?_, hchild, rfl, by simp, fun _ => hslot, fun _ => hnil, by simp,
        fun _ => hdead⟩,
        goto_same _ i c _⟩
      simpa [todo, goto, hnil] using hlog
    · next task rest hcons =>
      obtain rfl := Option.some.inj hs
      refine ⟨.drain, ⟨by simp, ?_, hchild, htasks, by simp, fun _ => hslot, by simp, by simp,
        fun _ => hdead⟩,
        goto_same _ i c _⟩
      simpa [todo, goto, hcons] using hlog
  | done => cases hs

/-- The locks are free when the call wants them, and the child is dead when it waits for it. -/
theorem Cleaning.enabled (h : Cleaning proxy t c.pc) (hpc : c.pc ≠ .done) (i : Nat) :
    (t.closeStep i c).isSome = true := by
  unfold Inner.closeStep
  generalize c.pc = pc at h hpc ⊢
  have hchild := h.child
  have htasks := h.tasks
  cases pc with
  | swap | signal | kill | clear => rfl
  | lockChild => simp [hchild]
  | wait => simp [h.killed rfl]
  | lockTasks => simp [htasks]
  | drain =>
    simp only
    split <;> rfl
  | done => exact absurd rfl hpc

theorem Cleaning.env {pc : ClosePc} (h : Cleaning proxy t pc) (hlog : t'.log = t.log)
    (hchild : t'.childLocked = t.childLocked) (htasks : t'.tasksLocked = t.tasksLocked)
    (hhandles : t'.taskHandles = t.taskHandles)
    (hslot : t'.proxyChild.isSome = t.proxyChild.isSome)
    (hrun : t'.proxyChild = some .running → t.proxyChild = some .running)
    (hdead : t.ipcDead = true → t'.ipcDead = true) : Cleaning proxy t' pc := by
  refine ⟨h.begun, ?_, hchild.trans h.child, htasks.trans h.tasks,
    fun hpc hr => h.killed hpc (hrun hr), fun hpc => ?_, fun hpc => hhandles.trans (h.handles hpc),
      fun hpc => hlog.trans (h.first hpc),
    fun hpc => hdead (h.dead hpc)⟩
  · have htodo : t'.todo pc = t.todo pc := by
      cases pc <;> simp only [todo, hhandles, hslot]
    rw [hlog, htodo]
    exact h.log
  · have hnone := h.slot hpc
    rw [hnone] at hslot
    exact Option.isNone_iff_eq_none.mp (by simpa using hslot)

/-- Of all calls the first one to swap the flag cleans up. -/
structure Inv (proxy : Bool) (t : Inner) : Prop where
  start : t.closed = false → Cleaning proxy t .signal ∧ ∀ c ∈ t.calls, c.pc = .swap
  winner : t.closed = true → ∃ (i : Nat) (c : CloseCall), t.calls[i]? = some c ∧
    Cleaning proxy t c.pc ∧
    ∀ (j : Nat) (d : CloseCall), j ≠ i → t.calls[j]? = some d → d.pc = .swap ∨ d.pc = .done
  borrowed : ∀ c ∈ t.calls, c.pc ≠ .done → ∀ h, c.handle = some h → t.handles[h]? = some true
  last : ∀ (i : Nat) (c : CloseCall), t.calls[i]? = some c → c.handle = none →
    true ∉ t.handles ∧ ∀ (j : Nat) (d : CloseCall), j ≠ i → t.calls[j]? = some d → d.pc = .done

theorem Inv.init (proxy : Bool) : Inv proxy (init proxy) :=
  ⟨fun _ => ⟨.init proxy, by simp [Inner.init]⟩, fun h => (by cases h), by simp [Inner.init],
    by simp [Inner.init]⟩

theorem get_push {calls : List CloseCall} {new d : CloseCall} {j : Nat}
    (h : (calls ++ [new])[j]? = some d) : calls[j]? = some d ∨ (j = calls.length ∧ d = new) := by
  rcases Nat.lt_trichotomy j calls.length with hlt | heq | hgt
  · rw [List.getElem?_append_left hlt] at h
    exact .inl h
  · subst heq
    rw [List.getElem?_concat_length] at h
    exact .inr ⟨rfl, (Option.some.inj h).symm⟩
  · rw [List.getElem?_eq_none (by simp; omega)] at h
    cases h

theorem get_set {calls : List CloseCall} {new d : CloseCall} {j : Nat}
    (h : (calls.set i new)[j]? = some d) : (j = i ∧ d = new) ∨ (j ≠ i ∧ calls[j]? = some d) := by
  rw [List.getElem?_set] at h
  split_ifs at h with hij hlt
  · exact .inl ⟨hij.symm, (Option.some.inj h).symm⟩
  · exact .inr ⟨Ne.symm hij, h⟩

/-- The first swap of the flag opens the way to the clean-up, all later ones lead out. -/
theorem closeStep_swap (hpc : c.pc = .swap) (hs : t.closeStep i c = some t') :
    t'.closed = true ∧ t'.handles = t.handles ∧
    t'.calls = t.calls.set i { c with pc := if t.closed then .done else .signal } ∧
    ∀ pc, Cleaning proxy t pc → Cleaning proxy t' pc := by
  simp only [closeStep, hpc] at hs
  obtain rfl := Option.some.inj hs
  exact ⟨rfl, rfl, rfl, fun pc h => h.env rfl rfl rfl rfl rfl id id⟩

namespace Inv

theorem not_last (h : Inv proxy t) (hheld : true ∈ t.handles) {j : Nat} {d : CloseCall}
    (hd : t.calls[j]? = some d) : d.handle ≠ none :=
  fun hnone => (h.last j d hd hnone).1 hheld

theorem push (h : Inv proxy t) (handles : List Bool) (hn : Option Nat)
    (hborrow : ∀ c ∈ t.calls, c.pc ≠ .done → ∀ k, c.handle = some k → handles[k]? = some true)
    (hnew : ∀ k, hn = some k → handles[k]? = some true)
    (hheld : true ∈ t.handles)
    (hlast : hn = none → true ∉ handles) :
    Inv proxy { t with handles := handles, calls := t.calls ++ [⟨hn, .swap⟩] } := by
  have hdone : hn = none → ∀ c ∈ t.calls, c.pc = .done := by
    intro hnone c hc
    by_contra hpc
    obtain ⟨j, hj⟩ := List.mem_iff_getElem?.mp hc
    obtain ⟨k, hk⟩ := Option.ne_none_iff_exists'.mp (h.not_last hheld hj)
    exact hlast hnone (List.mem_of_getElem? (hborrow c hc hpc k hk))
  refine ⟨fun hclosed => ?_, fun hclosed => ?_, fun c hc hpc k hk => ?_, fun j c hc hnone => ?_⟩
  · obtain ⟨hclean, hswap⟩ := h.start hclosed
    refine ⟨hclean.env rfl rfl rfl rfl rfl id id, fun c hc => ?_⟩
    rcases List.mem_append.mp hc with hc | hc
    · exact hswap c hc
    · rw [List.mem_singleton.mp hc]
  · obtain ⟨i, c, hi, hclean, hothers⟩ := h.winner hclosed
    refine ⟨i, c, ?_, hclean.env rfl rfl rfl rfl rfl id id, fun j d hj hd => ?_⟩
    · obtain ⟨hlt, -⟩ := List.getElem?_eq_some_iff.mp hi
      rw [← hi]
      exact List.getElem?_append_left hlt
    · rcases get_push hd with hd | ⟨-, rfl⟩
      · exact hothers j d hj hd
      · exact .inl rfl
  · rcases List.mem_append.mp hc with hc | hc
    · exact hborrow c hc hpc k hk
    · rw [List.mem_singleton.mp hc] at hk
      exact hnew k hk
  · rcases get_push hc with hc | ⟨hj, rfl⟩
    · exact absurd hnone (h.not_last hheld hc)
    · refine ⟨hlast hnone, fun j' d hne hd => ?_⟩
      rcases get_push hd with hd | ⟨hj', -⟩
      · exact hdone hnone d (List.mem_of_getElem? hd)
      · exact absurd (hj'.trans hj.symm) hne

/-- A call that is not over moves on; which call cleans up is left open. -/
theorem moved (h : Inv proxy t) (hc : t.calls[i]? = some c) (hpc : c.pc ≠ .done) {pc : ClosePc}
    (hhandles : t'.handles = t.handles) (hcalls : t'.calls = t.calls.set i { c with pc := pc })
    (hclosed : t'.closed = true) {k : Nat} {w : CloseCall} (hw : t'.calls[k]? = some w)
    (hclean : Cleaning proxy t' w.pc)
    (hothers : ∀ (j : Nat) (d : CloseCall), j ≠ k → t'.calls[j]? = some d →
      d.pc = .swap ∨ d.pc = .done) : Inv proxy t' := by
  refine ⟨fun hopen => ?_, fun _ => ⟨k, w, hw, hclean, hothers⟩, fun d hd hdone b hb => ?_,
    fun j d hd hnone => ?_⟩
  · rw [hclosed] at hopen
    cases hopen
  · rw [hhandles]
    rw [hcalls] at hd
    rcases List.mem_or_eq_of_mem_set hd with hd | rfl
    · exact h.borrowed d hd hdone b hb
    · exact h.borrowed c (List.mem_of_getElem? hc) hpc b hb
  · rw [hhandles]
    rw [hcalls] at hd ⊢
    -- a call from the drop of the shared part is the only one that is not over
    have hold : t.calls[j]? = some d ∨ j = i ∧ c.handle = none := by
      rcases get_set hd with ⟨rfl, rfl⟩ | ⟨-, hd⟩
      · exact .inr ⟨rfl, hnone⟩
      · exact .inl hd
    have hj : j = i := by
      by_contra hne
      rcases hold with hold | ⟨rfl, -⟩
      · exact hpc ((h.last j d hold hnone).2 i c (Ne.symm hne) hc)
      · exact hne rfl
    subst hj
    have hcnone : c.handle = none := by
      rcases get_set hd with ⟨-, rfl⟩ | ⟨hne, -⟩
      · exact hnone
      · exact absurd rfl hne
    obtain ⟨hfree, hdone⟩ := h.last j c hc hcnone
    refine ⟨hfree, fun j' d' hne hd' => ?_⟩
    rcases get_set hd' with ⟨rfl, -⟩ | ⟨-, hd'⟩
    · exact absurd rfl hne
    · exact hdone j' d' hne hd'

theorem run (h : Inv proxy t) (hc : t.calls[i]? = some c) (hs : t.closeStep i c = some t') :
    Inv proxy t' := by
  have hpc : c.pc ≠ .done := by
    intro hdone
    simp [Inner.closeStep, hdone] at hs
  have hself : ∀ new : CloseCall, (t.calls.set i new)[i]? = some new := by
    intro new
    obtain ⟨hlt, -⟩ := List.getElem?_eq_some_iff.mp hc
    exact List.getElem?_set_self hlt
  by_cases hswap : c.pc = .swap
  · obtain ⟨hclosed', hhandles, hcalls, hclean'⟩ := closeStep_swap hswap hs
    cases hclosed : t.closed with
    | false =>
      -- this call is the first
      obtain ⟨hclean, hall⟩ := h.start hclosed
      rw [hclosed] at hcalls
      apply h.moved hc hpc hhandles hcalls hclosed' (k := i) (w := { c with pc := .signal })
      · rw [hcalls]
        exact hself _
      · exact hclean' _ hclean
      · intro j d hne hd
        rw [hcalls] at hd
        rcases get_set hd with ⟨rfl, -⟩ | ⟨-, hd⟩
        · exact absurd rfl hne
        · exact .inl (hall d (List.mem_of_getElem? hd))
    | true =>
      obtain ⟨k, w, hk, hclean, hothers⟩ := h.winner hclosed
      have hne : k ≠ i := by
        intro he
        subst he
        obtain rfl := Option.some.inj (hk.symm.trans hc)
        exact hclean.begun hswap
      rw [hclosed] at hcalls
      apply h.moved hc hpc hhandles hcalls hclosed' (k := k) (w := w)
      · rw [hcalls, List.getElem?_set_ne (Ne.symm hne)]
        exact hk
      · exact hclean' _ hclean
      · intro j d hj hd
        rw [hcalls] at hd
        rcases get_set hd with ⟨-, rfl⟩ | ⟨-, hd⟩
        · exact .inr rfl
        · exact hothers j d hj hd
  · have hclosed : t.closed = true := by
      cases hclosed : t.closed with
      | true => rfl
      | false => exact absurd ((h.start hclosed).2 c (List.mem_of_getElem? hc)) hswap
    obtain ⟨k, w, hk, hclean, hothers⟩ := h.winner hclosed
    -- only the call that cleans up is neither before its swap nor over
    have hik : i = k := by
      by_contra hne
      exact (hothers i c hne hc).elim hswap hpc
    subst hik
    obtain rfl := Option.some.inj (hk.symm.trans hc)
    obtain ⟨pc, hnext, hsame, hhandles, hcalls⟩ := hclean.closeStep hs
    apply h.moved hc hpc hhandles hcalls (hsame.trans hclosed) (k := i) (w := { w with pc := pc })
    · rw [hcalls]
      exact hself _
    · exact hnext
    · intro j d hj hd
      rw [hcalls] at hd
      rcases get_set hd with ⟨rfl, -⟩ | ⟨-, hd⟩
      · exact absurd rfl hj
      · exact hothers j d hj hd

theorem step (h : Inv proxy t) {a : Action} (hs : Inner.step a t = some t') : Inv proxy t' := by
  cases a with
  | clone k =>
    simp only [Inner.step] at hs
    split_ifs at hs with hk
    obtain rfl := Option.some.inj hs
    have hheld : true ∈ t.handles := List.mem_of_getElem? hk
    refine ⟨fun ho => ?_, fun hc => ?_, fun c hc hpc b hb => ?_, fun j c hc hnone => ?_⟩
    · exact ⟨(h.start ho).1.env rfl rfl rfl rfl rfl id id, (h.start ho).2⟩
    · obtain ⟨i, c, hi, hclean, hothers⟩ := h.winner hc
      exact ⟨i, c, hi, hclean.env rfl rfl rfl rfl rfl id id, hothers⟩
    · have hb' := h.borrowed c hc hpc b hb
      obtain ⟨hlt, -⟩ := List.getElem?_eq_some_iff.mp hb'
      rw [← hb']
      exact List.getElem?_append_left hlt
    · exact absurd hnone (h.not_last hheld hc)
  | close k =>
    simp only [Inner.step] at hs
    split_ifs at hs with hk
    obtain rfl := Option.some.inj hs
    apply h.push t.handles (some k) h.borrowed
    · intro b hb
      rw [← Option.some.inj hb]
      exact hk
    · exact List.mem_of_getElem? hk
    · intro hnone
      cases hnone
  | drop k =>
    simp only [Inner.step] at hs
    split_ifs at hs with hk hleft
    all_goals
      obtain rfl := Option.some.inj hs
      have hheld : true ∈ t.handles := List.mem_of_getElem? hk.1
      have hborrow : ∀ c ∈ t.calls, c.pc ≠ .done → ∀ b, c.handle = some b →
          (t.handles.set k false)[b]? = some true := by
        intro c hc hpc b hb
        have hne : k ≠ b := by
          rintro rfl
          exact hpc (hk.2 c hc hb)
        rw [List.getElem?_set_ne hne]
        exact h.borrowed c hc hpc b hb
    · refine ⟨fun ho => ?_, fun hc => ?_, hborrow, fun j c hc hnone => ?_⟩
      · exact ⟨(h.start ho).1.env rfl rfl rfl rfl rfl id id, (h.start ho).2⟩
      · obtain ⟨i, c, hi, hclean, hothers⟩ := h.winner hc
        exact ⟨i, c, hi, hclean.env rfl rfl rfl rfl rfl id id, hothers⟩
      · exact absurd hnone (h.not_last hheld hc)
    · exact h.push _ none hborrow (by simp) hheld (fun _ => hleft)
  | run i =>
    obtain ⟨c, hc, hstep⟩ := Option.bind_eq_some_iff.mp hs
    exact h.run hc hstep
  | childExits =>
    simp only [Inner.step] at hs
    split_ifs at hs with hrun
    obtain rfl := Option.some.inj hs
    have hclean : ∀ pc, Cleaning proxy t pc →
        Cleaning proxy { t with proxyChild := some .exited } pc := by
      intro pc hpc
      exact hpc.env rfl rfl rfl rfl (by rw [hrun]; rfl) (by simp) id
    refine ⟨fun ho => ⟨hclean _ (h.start ho).1, (h.start ho).2⟩, fun hc => ?_, h.borrowed, h.last⟩
    obtain ⟨i, c, hi, hcl, hothers⟩ := h.winner hc
    exact ⟨i, c, hi, hclean _ hcl, hothers⟩
  | ipcDies =>
    obtain rfl := Option.some.inj hs
    have hclean : ∀ pc, Cleaning proxy t pc → Cleaning proxy { t with ipcDead := true } pc := by
      intro pc hpc
      exact hpc.env rfl rfl rfl rfl rfl id (fun _ => rfl)
    refine ⟨fun ho => ⟨hclean _ (h.start ho).1, (h.start ho).2⟩, fun hc => ?_, h.borrowed, h.last⟩
    obtain ⟨i, c, hi, hcl, hothers⟩ := h.winner hc
    exact ⟨i, c, hi, hclean _ hcl, hothers⟩

theorem enabled (h : Inv proxy t) (hc : t.calls[i]? = some c) (hpc : c.pc ≠ .done) :
    ∃ t', Inner.step (.run i) t = some t' := by
  have hsome : (t.closeStep i c).isSome = true := by
    by_cases hswap : c.pc = .swap
    · simp [closeStep, hswap]
    · cases hclosed : t.closed with
      | false => exact absurd ((h.start hclosed).2 c (List.mem_of_getElem? hc)) hswap
      | true =>
        obtain ⟨k, w, hk, hclean, hothers⟩ := h.winner hclosed
        have hik : i = k := by
          by_contra hne
          exact (hothers i c hne hc).elim hswap hpc
        subst hik
        obtain rfl := Option.some.inj (hk.symm.trans hc)
        exact hclean.enabled hpc i
  obtain ⟨t', ht'⟩ := Option.isSome_iff_exists.mp hsome
  exact ⟨t', by rw [Inner.step, hc]; exact ht'⟩

/-- The call that cleans up, or that would if it were made now. -/
theorem cleaning (h : Inv proxy t) : ∃ pc, Cleaning proxy t pc := by
  cases hclosed : t.closed with
  | false => exact ⟨.signal, (h.start hclosed).1⟩
  | true =>
    obtain ⟨i, c, -, hclean, -⟩ := h.winner hclosed
    exact ⟨c.pc, hclean⟩

/-- Once some call has returned and none is under way, everything is cleaned up. -/
theorem released (h : Inv proxy t) {d : CloseCall} (hd : d ∈ t.calls)
    (hall : ∀ c ∈ t.calls, c.pc = .done) :
    t.log = script proxy ∧ t.proxyChild = none ∧ t.taskHandles = [] := by
  have hclosed : t.closed = true := by
    by_contra hopen
    rw [Bool.not_eq_true] at hopen
    have hswap := (h.start hopen).2 d hd
    rw [hall d hd] at hswap
    cases hswap
  obtain ⟨i, c, hc, hclean, -⟩ := h.winner hclosed
  have hdone := hall c (List.mem_of_getElem? hc)
  have hlog := hclean.log
  rw [hdone, todo, List.append_nil] at hlog
  exact ⟨hlog, hclean.slot (.inr (.inr hdone)), hclean.handles hdone⟩

end Inv

end Inner

/-- However calls of `close` and drops of clones interleave, the clean-up is done once, in the order
of one call, and no call waits for a lock or for a living child. Once a call has returned and none
is under way, the child has been killed and waited for and each task has been aborted. -/
theorem close_once (proxy : Bool) (t : Inner) (h : Reachable Inner.step (Inner.init proxy) t) :
    t.log <+: script proxy ∧
    (t.log ≠ [] → t.ipcDead = true) ∧
    (∀ i c, t.calls[i]? = some c → c.pc ≠ .done → ∃ t', Inner.step (.run i) t = some t') ∧
    ((∃ c ∈ t.calls, c.pc = .done) → (∀ c ∈ t.calls, c.pc = .done) →
      t.log = script proxy ∧ t.proxyChild = none ∧ t.taskHandles = []) ∧
    (∀ c ∈ t.calls, c.handle = none → c.pc = .done →
      t.log = script proxy ∧ t.proxyChild = none ∧ t.taskHandles = []) := by
  have hinv : t.Inv proxy := h.invariant _ (Inner.Inv proxy) (.init proxy)
    (fun _ _ _ hs _ ht => hs.step ht)
  obtain ⟨pc, hclean⟩ := hinv.cleaning
  refine ⟨⟨_, hclean.log⟩, fun hne => ?_, fun i c hc hpc => ?_, fun hsome hall => ?_,
    fun c hc hnone hdone => ?_⟩
  · apply hclean.dead
    intro hpc
    exact hne (hclean.first hpc)
  · exact hinv.enabled hc hpc
  · obtain ⟨c, hc, -⟩ := hsome
    exact hinv.released hc hall
  · obtain ⟨i, hi⟩ := List.mem_iff_getElem?.mp hc
    apply hinv.released hc
    intro d hd
    obtain ⟨j, hj⟩ := List.mem_iff_getElem?.mp hd
    by_cases hij : j = i
    · subst hij
      rw [← Option.some.inj (hi.symm.trans hj)]
      exact hdone
    · exact (hinv.last i c hi hnone).2 j d hij hj

/-- The second call returns before the first has done anything. -/
def closeTwice : List Action :=
  [.clone 0, .close 0, .close 1, .run 0, .run 1] ++ List.replicate 10 (.run 0) ++
    [.drop 1, .drop 0, .run 2]

theorem close_once_closeTwice : ∃ t : Inner, t.calls.map CloseCall.pc = [.done, .done, .done] ∧
    t.log = [.signalDead, .kill, .wait, .abort .ipcReader, .abort .ipcWriter, .abort .stack] := by
  obtain ⟨t, ht, -, hp⟩ := reachable_of_run Inner.step closeTwice (.init true)
    (fun t => decide (t.calls.map CloseCall.pc = [.done, .done, .done] ∧
      t.calls[2]? = some (⟨none, .done⟩ : CloseCall))) (by decide)
  obtain ⟨hdone, hlast⟩ := of_decide_eq_true hp
  obtain ⟨-, -, -, -, hdrop⟩ := close_once true t ht
  exact ⟨t, hdone, (hdrop _ (List.mem_of_getElem? hlast) rfl rfl).1⟩

end TapTunnel.Tunnel
