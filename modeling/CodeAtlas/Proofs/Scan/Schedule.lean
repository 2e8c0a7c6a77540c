import CodeAtlas.Proofs.Scan.Work
import Mathlib.Logic.Function.Basic

/-!
Scans under schedules.  A scan has a worker for each file and a token that can be set at any moment
and is never reset.  A worker looks at the token once, before it starts; a file whose worker saw the
token set is left out, and a file that was begun is finished.  When no worker has anything left to
do, the token is read for the last time and the report is made.  A list of `ScanEvent`s is a
schedule: workers take their steps in any order, others use the same cache in between, and the token
is set anywhere.

The invariant relates a state to the events that led to it (`ScanTask.Invariant`).  A worker was
skipped or begun as its first step says, its request is for the key it needs, and its outcome is
that of its file alone, since a sound cache answers with what compiling on the spot gives.  The
token is read last and never reset, so a report that is not marked as cancelled has all files
(`Reports.complete`).
-/

namespace CodeAtlas

open QueryCache (Traffic)

/-! ## Schedules -/

/-- What can happen next to a scan. -/
inductive ScanEvent where
  /-- The token is set. -/
  | cancel
  /-- The worker of a file takes its next step. -/
  | step (file : FoundFile)
  /-- Somebody else uses the cache. -/
  | elsewhere (event : QueryCache.Event)
  /-- The token is read for the last time and the report is made. -/
  | finish (elapsedMs : Nat)
deriving DecidableEq

namespace ScanEvent

def ahead (events : List ScanEvent) : List ScanEvent :=
  events.takeWhile (fun e => e != .cancel)

/-- The worker of a file saw the token unset: it took its first step before the token was set. -/
def began (events : List ScanEvent) (f : FoundFile) : Bool :=
  (ahead events).contains (.step f)

theorem ahead_append_of_not_mem {events : List ScanEvent} (h : .cancel ∉ events)
    (more : List ScanEvent) : ahead (events ++ more) = events ++ ahead more := by
  unfold ahead
  rw [List.takeWhile_append_of_pos]
  intro e he
  rw [bne_iff_ne]
  rintro rfl
  exact h he

theorem ahead_of_not_mem {events : List ScanEvent} (h : .cancel ∉ events) :
    ahead events = events := by
  have happend := ahead_append_of_not_mem h []
  rwa [List.append_nil, show ahead [] = [] from rfl, List.append_nil] at happend

theorem ahead_append_of_mem {events : List ScanEvent} (h : .cancel ∈ events)
    (more : List ScanEvent) : ahead (events ++ more) = ahead events := by
  unfold ahead
  induction events with
  | nil => cases h
  | cons e rest ih =>
    by_cases he : e = .cancel
    · simp [he]
    · have hrest : .cancel ∈ rest := (List.mem_cons.mp h).resolve_left (Ne.symm he)
      simp [he, ih hrest]

theorem began_of_not_mem {events : List ScanEvent} (h : .cancel ∉ events) (f : FoundFile) :
    began events f = true ↔ .step f ∈ events := by
  unfold began
  rw [ahead_of_not_mem h, List.contains_iff_mem]

theorem mem_of_began {events : List ScanEvent} {f : FoundFile} (h : began events f = true) :
    .step f ∈ events :=
  (List.takeWhile_sublist _).subset (List.contains_iff_mem.mp h)

theorem began_append {events : List ScanEvent} {f : FoundFile} (h : .step f ∈ events)
    (more : List ScanEvent) : began (events ++ more) f = began events f := by
  by_cases hcancel : .cancel ∈ events
  · unfold began
    rw [ahead_append_of_mem hcancel]
  · have hbegan := (began_of_not_mem hcancel f).mpr h
    rw [hbegan]
    unfold began
    rw [ahead_append_of_not_mem hcancel, List.contains_iff_mem]
    exact List.mem_append_left _ h

theorem began_snoc_of_ne {events : List ScanEvent} {e : ScanEvent} {f : FoundFile}
    (h : e ≠ .step f) : began (events ++ [e]) f = began events f := by
  unfold began
  by_cases hcancel : .cancel ∈ events
  · rw [ahead_append_of_mem hcancel]
  · rw [ahead_append_of_not_mem hcancel, ahead_of_not_mem hcancel, Bool.eq_iff_iff,
      List.contains_iff_mem, List.contains_iff_mem, List.mem_append]
    refine or_iff_left fun hmem => h ?_
    exact (List.mem_singleton.mp ((List.takeWhile_sublist _).subset hmem)).symm

theorem count_snoc_of_ne {events : List ScanEvent} {e : ScanEvent} {f : FoundFile}
    (h : e ≠ .step f) : (events ++ [e]).count (.step f) = events.count (.step f) := by
  rw [List.count_append, List.count_singleton]
  simp [h]

theorem began_snoc_step {events : List ScanEvent} {f : FoundFile} (h : .step f ∉ events) :
    began (events ++ [.step f]) f = true ↔ .cancel ∉ events := by
  by_cases hcancel : .cancel ∈ events
  · refine iff_of_false (fun hbegan => h ?_) (not_not_intro hcancel)
    unfold began at hbegan
    rw [ahead_append_of_mem hcancel] at hbegan
    exact mem_of_began hbegan
  · refine iff_of_true ((began_of_not_mem ?_ f).mpr (by simp)) hcancel
    simp [hcancel]

end ScanEvent

/-! ## The machine -/

variable [QueryEngine]

/-- How far the worker of a file came. -/
inductive Stage where
  | waiting
  /-- The token was set when the worker looked. -/
  | skipped
  /-- The token was not set when the worker looked. -/
  | begun
  /-- The file needs the answer to the request with a number. -/
  | asking (request : Nat) (resume : Except Failure Query → FileOutcome)
  | ended (outcome : FileOutcome)

namespace Stage

/-- The next step of a worker: it looks at the token, it works up to its request, it takes a step of
the request, or it goes on from the answer. -/
def advance (work : Work) (token : Bool) (traffic : Traffic) : Stage → Stage × Traffic
  | .waiting => (if token then .skipped else .begun, traffic)
  | .begun =>
    match work with
    | .ended outcome => (.ended outcome, traffic)
    | .asks key resume => (.asking traffic.requests.length resume, traffic.next (.ask key))
  | .asking i resume =>
    match traffic.requests[i]? with
    | some ⟨_, .answered answer⟩ =>
      (.ended (resume (answer.map fun q => q.query)), traffic)
    | _ => (.asking i resume, traffic.next (.step i))
  | .skipped => (.skipped, traffic)
  | .ended outcome => (.ended outcome, traffic)

def isOver : Stage → Bool
  | .skipped | .ended _ => true
  | _ => false

/-- The outcome of a file that was begun and is finished. -/
def outcome? : Stage → Option FileOutcome
  | .ended outcome => some outcome
  | _ => none

end Stage

/-- What a scan is about: the root, its files and the work on each of them. -/
structure ScanTask where
  root : String
  files : List FoundFile
  work : FoundFile → Work

structure ScanState where
  token : Bool
  /-- The cache with all requests ever made of it. -/
  traffic : Traffic
  stages : FoundFile → Stage
  report : Option ScanReport

namespace ScanTask

/-- A scan before its first step, on a cache that was used before. -/
def start (traffic : Traffic) : ScanState :=
  ⟨false, traffic, fun _ => .waiting, none⟩

def isOver (t : ScanTask) (s : ScanState) : Bool :=
  t.files.all fun f => (s.stages f).isOver

def conclude (t : ScanTask) (s : ScanState) (elapsedMs : Nat) : ScanReport :=
  .ofOutcomes t.root (t.files.filterMap fun f => (s.stages f).outcome?) s.token elapsedMs

def next (t : ScanTask) (s : ScanState) : ScanEvent → ScanState
  | .cancel => { s with token := true }
  | .step f =>
    let after := (s.stages f).advance (t.work f) s.token s.traffic
    { s with stages := Function.update s.stages f after.1, traffic := after.2 }
  | .elsewhere event => { s with traffic := s.traffic.next event }
  | .finish elapsedMs =>
    if s.report.isNone && t.isOver s then { s with report := some (t.conclude s elapsedMs) } else s

def run (t : ScanTask) (s : ScanState) (events : List ScanEvent) : ScanState :=
  events.foldl t.next s

end ScanTask

/-! ## Workers -/

theorem QueryCache.Traffic.answered_of_left {phase : QueryCache.Phase} (h : Traffic.left phase = 0) :
    ∃ answer, phase = .answered answer := by
  cases phase with
  | answered answer => exact ⟨answer, rfl⟩
  | _ => cases h

namespace Stage

open ScanEvent

/-- A worker's stage is right after some events: it was skipped or begun as its first step says, its
request is for the key it needs, and its outcome is that of its file alone. -/
def Fits (work : Work) (traffic : Traffic) (events : List ScanEvent) (f : FoundFile) : Stage → Prop
  | .waiting => .step f ∉ events
  | .skipped => .step f ∈ events ∧ began events f = false
  | .begun => began events f = true
  | .asking i resume => began events f = true ∧
      ∃ key phase, work = .asks key resume ∧ traffic.requests[i]? = some ⟨key, phase⟩
  | .ended outcome => began events f = true ∧ outcome = work.outcome

theorem advance_traffic (work : Work) (token : Bool) (traffic : Traffic) (stage : Stage) :
    ∃ events, (stage.advance work token traffic).2 = traffic.run events := by
  cases stage with
  | waiting => exact ⟨[], rfl⟩
  | skipped => exact ⟨[], rfl⟩
  | begun =>
    cases work with
    | ended outcome => exact ⟨[], rfl⟩
    | asks key resume => exact ⟨[.ask key], rfl⟩
  | asking i resume =>
    unfold advance
    dsimp only
    split
    · exact ⟨[], rfl⟩
    · exact ⟨[.step i], rfl⟩
  | ended outcome => exact ⟨[], rfl⟩

variable {work : Work} {traffic : Traffic} {events : List ScanEvent} {f : FoundFile} {stage : Stage}

theorem advance_of_answered {i : Nat} {key : QueryKey} {answer : Except Failure Compiled}
    (h : traffic.requests[i]? = some ⟨key, .answered answer⟩) (work : Work) (token : Bool)
    (resume : Except Failure Query → FileOutcome) :
    (asking i resume).advance work token traffic =
      (.ended (resume (answer.map fun q => q.query)), traffic) := by
  simp only [advance, h]

theorem advance_of_pending {i : Nat} {key : QueryKey} {phase : QueryCache.Phase}
    (h : traffic.requests[i]? = some ⟨key, phase⟩) (hleft : 0 < Traffic.left phase) (work : Work)
    (token : Bool) (resume : Except Failure Query → FileOutcome) :
    (asking i resume).advance work token traffic =
      (.asking i resume, traffic.run [.step i]) := by
  cases phase with
  | answered answer => cases hleft
  | _ => simp only [advance, h]; rfl

theorem Fits.of_ne (h : stage.Fits work traffic events f) {e : ScanEvent} (he : e ≠ .step f)
    (moves : List QueryCache.Event) :
    stage.Fits work (traffic.run moves) (events ++ [e]) f := by
  have hbegan : began (events ++ [e]) f = began events f := began_snoc_of_ne he
  cases stage with
  | waiting =>
    have h : .step f ∉ events := h
    show .step f ∉ events ++ [e]
    simp [h, Ne.symm he]
  | skipped => exact ⟨List.mem_append_left _ h.1, hbegan.trans h.2⟩
  | begun => exact hbegan.trans h
  | asking i resume =>
    obtain ⟨h, key, phase, hwork, hrequest⟩ := h
    obtain ⟨⟨key', phase'⟩, hrequest', rfl, -⟩ := Traffic.left_run hrequest moves
    exact ⟨hbegan.trans h, key', phase', hwork, hrequest'⟩
  | ended outcome => exact ⟨hbegan.trans h.1, h.2⟩

theorem Fits.advance (h : stage.Fits work traffic events f) (hsound : traffic.Sound) {token : Bool}
    (htoken : token = true ↔ .cancel ∈ events) :
    (stage.advance work token traffic).1.Fits work (stage.advance work token traffic).2
      (events ++ [.step f]) f := by
  have hkeeps : began events f = true → began (events ++ [.step f]) f = true := by
    intro hbegan
    rw [began_append (mem_of_began hbegan)]
    exact hbegan
  cases stage with
  | waiting =>
    have hfirst := began_snoc_step (show .step f ∉ events from h)
    cases token with
    | true =>
      have hcancel : .cancel ∈ events := htoken.mp rfl
      refine ⟨by simp, ?_⟩
      rw [← Bool.not_eq_true, hfirst]
      exact not_not_intro hcancel
    | false =>
      refine hfirst.mpr fun hcancel => ?_
      cases htoken.mpr hcancel
  | skipped => exact ⟨List.mem_append_left _ h.1, (began_append h.1 _).trans h.2⟩
  | begun =>
    cases work with
    | ended outcome => exact ⟨hkeeps h, rfl⟩
    | asks key resume =>
      refine ⟨hkeeps h, key, .begun, rfl, ?_⟩
      show (traffic.requests ++ [⟨key, .begun⟩])[traffic.requests.length]? = _
      simp
  | asking i resume =>
    obtain ⟨hbegan, key, phase, rfl, hrequest⟩ := h
    rcases Nat.eq_zero_or_pos (Traffic.left phase) with hzero | hpos
    · obtain ⟨answer, rfl⟩ := Traffic.answered_of_left hzero
      rw [advance_of_answered hrequest]
      -- the cache is sound, so the answer is the compilation of the key
      refine ⟨hkeeps hbegan, ?_⟩
      show resume _ = resume _
      rw [hsound.answer hrequest]
    · rw [advance_of_pending hrequest hpos]
      obtain ⟨⟨key', phase'⟩, hnext, rfl, -⟩ := Traffic.left_run hrequest [.step i]
      exact ⟨hkeeps hbegan, key', phase', rfl, hnext⟩
  | ended outcome => exact ⟨hkeeps h.1, h.2⟩

/-- The steps that a worker has still to take, at most. -/
def left (traffic : Traffic) : Stage → Nat
  | .waiting => 6
  | .begun => 5
  | .asking i _ =>
    match traffic.requests[i]? with
    | some r => Traffic.left r.phase + 1
    | none => 4
  | .skipped => 0
  | .ended _ => 0

theorem isOver_of_left (h : stage.left traffic = 0) : stage.isOver = true := by
  cases stage with
  | skipped => rfl
  | ended outcome => rfl
  | waiting => cases h
  | begun => cases h
  | asking i resume =>
    unfold left at h
    dsimp only at h
    split at h <;> omega

theorem Fits.left_of_others (h : stage.Fits work traffic events f)
    (moves : List QueryCache.Event) : stage.left (traffic.run moves) ≤ stage.left traffic := by
  cases stage with
  | asking i resume =>
    obtain ⟨-, key, phase, -, hrequest⟩ := h
    obtain ⟨s, hs, -, hleft⟩ := Traffic.left_run hrequest moves
    simp only [left, hrequest, hs]
    dsimp only at hleft
    omega
  | _ => exact le_rfl

theorem Fits.left_advance (h : stage.Fits work traffic events f) (token : Bool) :
    (stage.advance work token traffic).1.left (stage.advance work token traffic).2 ≤
      stage.left traffic - 1 := by
  cases stage with
  | waiting => cases token <;> simp [Stage.advance, left]
  | begun =>
    cases work with
    | ended outcome => simp [Stage.advance, left]
    | asks key resume => simp [Stage.advance, left, Traffic.next, Traffic.left]
  | asking i resume =>
    obtain ⟨-, key, phase, -, hrequest⟩ := h
    rcases Nat.eq_zero_or_pos (Traffic.left phase) with hzero | hpos
    · obtain ⟨answer, rfl⟩ := Traffic.answered_of_left hzero
      rw [advance_of_answered hrequest]
      exact Nat.zero_le _
    · rw [advance_of_pending hrequest hpos]
      obtain ⟨s, hs, -, hleft⟩ := Traffic.left_run hrequest [.step i]
      simp only [left, hrequest, hs]
      simp at hleft
      omega
  | skipped => simp [Stage.advance, left]
  | ended outcome => simp [Stage.advance, left]

end Stage

/-! ## Scans -/

namespace ScanTask

open ScanEvent

/-- A report is what it has to be after some events: every worker has looked at the token, the
outcomes are those of the files begun, and a report that is not marked has all files. -/
structure Reports (t : ScanTask) (events : List ScanEvent) (r : ScanReport) : Prop where
  checked : ∀ f ∈ t.files, .step f ∈ events
  report : ∃ elapsedMs, r = .ofOutcomes t.root
    ((t.files.filter (began events)).map fun f => (t.work f).outcome) r.cancelled elapsedMs
  complete : r.cancelled = false → ∀ f ∈ t.files, began events f = true
  marked : r.cancelled = true → .cancel ∈ events

/-- What happens after the report changes nothing of this. -/
theorem Reports.append {t : ScanTask} {events : List ScanEvent} {r : ScanReport}
    (h : t.Reports events r) (more : List ScanEvent) : t.Reports (events ++ more) r := by
  have hsame : ∀ f ∈ t.files, began (events ++ more) f = began events f :=
    fun f hf => began_append (h.checked f hf) more
  refine ⟨fun f hf => List.mem_append_left _ (h.checked f hf), ?_, fun hr f hf => ?_,
    fun hr => List.mem_append_left _ (h.marked hr)⟩
  · rw [List.filter_congr hsame]
    exact h.report
  · rw [hsame f hf]
    exact h.complete hr f hf

/-- The invariant of a scan after some events. -/
structure Invariant (t : ScanTask) (events : List ScanEvent) (s : ScanState) : Prop where
  token : s.token = true ↔ .cancel ∈ events
  sound : s.traffic.Sound
  fits : ∀ f, (s.stages f).Fits (t.work f) s.traffic events f
  left : ∀ f, (s.stages f).left s.traffic ≤ 6 - events.count (.step f)
  reports : ∀ r, s.report = some r → t.Reports events r

theorem invariant_start (t : ScanTask) {traffic : Traffic} (h : traffic.Sound) :
    t.Invariant [] (start traffic) where
  token := by simp [start]
  sound := h
  fits f := List.not_mem_nil
  left f := le_rfl
  reports r hr := by cases hr

variable {t : ScanTask} {events : List ScanEvent} {s : ScanState}

/-- When no worker has anything left to do, the outcomes are those of the files begun. -/
theorem Invariant.outcomes (h : t.Invariant events s) (hover : t.isOver s = true) :
    (t.files.filterMap fun f => (s.stages f).outcome?) =
      (t.files.filter (began events)).map fun f => (t.work f).outcome := by
  rw [← List.filterMap_eq_map, List.filterMap_filter]
  refine List.filterMap_congr fun f hf => ?_
  have hdone := List.all_eq_true.mp hover f hf
  have hfits := h.fits f
  cases hstage : s.stages f with
  | skipped =>
    rw [hstage] at hfits
    simp [Stage.outcome?, hfits.2]
  | ended outcome =>
    rw [hstage] at hfits
    simp [Stage.outcome?, hfits.1, hfits.2]
  | waiting => simp [hstage, Stage.isOver] at hdone
  | begun => simp [hstage, Stage.isOver] at hdone
  | asking i resume => simp [hstage, Stage.isOver] at hdone

theorem Invariant.checked (h : t.Invariant events s) (hover : t.isOver s = true) {f : FoundFile}
    (hf : f ∈ t.files) : .step f ∈ events := by
  have hdone := List.all_eq_true.mp hover f hf
  have hfits := h.fits f
  cases hstage : s.stages f with
  | skipped =>
    rw [hstage] at hfits
    exact hfits.1
  | ended outcome =>
    rw [hstage] at hfits
    exact mem_of_began hfits.1
  | waiting => simp [hstage, Stage.isOver] at hdone
  | begun => simp [hstage, Stage.isOver] at hdone
  | asking i resume => simp [hstage, Stage.isOver] at hdone

/-- The report is made when every worker has looked at the token.  Unset at the last look, the token
was unset at all of them. -/
theorem Invariant.conclude (h : t.Invariant events s) (hover : t.isOver s = true)
    (elapsedMs : Nat) : t.Reports events (t.conclude s elapsedMs) where
  checked f hf := h.checked hover hf
  report := ⟨elapsedMs, by unfold ScanTask.conclude; rw [h.outcomes hover]; rfl⟩
  complete hr f hf := by
    have hcancel : .cancel ∉ events := by
      rw [← h.token]
      exact Bool.not_eq_true _ ▸ hr
    exact (began_of_not_mem hcancel f).mpr (h.checked hover hf)
  marked hr := h.token.mp hr

theorem Invariant.of_same_stages (h : t.Invariant events s) {e : ScanEvent} {s' : ScanState}
    (he : ∀ f, e ≠ .step f) (hstages : s'.stages = s.stages)
    (moves : List QueryCache.Event) (htraffic : s'.traffic = s.traffic.run moves)
    (htoken : s'.token = true ↔ .cancel ∈ events ++ [e])
    (hreports : ∀ r, s'.report = some r → t.Reports (events ++ [e]) r) :
    t.Invariant (events ++ [e]) s' where
  token := htoken
  sound := by rw [htraffic]; exact h.sound.run moves
  fits f := by
    rw [hstages, htraffic]
    exact (h.fits f).of_ne (he f) moves
  left f := by
    have hleft := h.left f
    have hothers := (h.fits f).left_of_others moves
    rw [hstages, htraffic, count_snoc_of_ne (he f)]
    omega
  reports := hreports

/-- A step of one worker: its own stage moves on, and the others stay right. -/
theorem Invariant.step (h : t.Invariant events s) (f : FoundFile) :
    t.Invariant (events ++ [.step f]) (t.next s (.step f)) := by
  obtain ⟨moves, hmoves⟩ := Stage.advance_traffic (t.work f) s.token s.traffic (s.stages f)
  have htraffic : (t.next s (.step f)).traffic = s.traffic.run moves := hmoves
  have hne : ∀ {g : FoundFile}, g ≠ f → ScanEvent.step f ≠ .step g :=
    fun hg heq => hg (ScanEvent.step.inj heq).symm
  refine ⟨?_, ?_, ?_, ?_, ?_⟩
  · show s.token = true ↔ _
    rw [h.token]
    simp
  · rw [htraffic]
    exact h.sound.run moves
  · intro g
    by_cases hg : g = f
    · subst hg
      simp only [ScanTask.next, Function.update_self]
      exact (h.fits g).advance h.sound h.token
    · have hstage : (t.next s (.step f)).stages g = s.stages g := Function.update_of_ne hg _ _
      rw [hstage, htraffic]
      exact (h.fits g).of_ne (hne hg) moves
  · intro g
    have hleft := h.left g
    by_cases hg : g = f
    · -- one step is taken, and one step less is left
      subst hg
      have hown := (h.fits g).left_advance s.token
      simp only [ScanTask.next, Function.update_self, List.count_append, List.count_singleton_self]
      omega
    · have hstage : (t.next s (.step f)).stages g = s.stages g := Function.update_of_ne hg _ _
      have hothers := (h.fits g).left_of_others moves
      rw [hstage, htraffic, count_snoc_of_ne (hne hg)]
      omega
  · intro r hr
    exact (h.reports r hr).append _

theorem Invariant.finish (h : t.Invariant events s) (elapsedMs : Nat) :
    t.Invariant (events ++ [.finish elapsedMs]) (t.next s (.finish elapsedMs)) := by
  have htoken : s.token = true ↔ .cancel ∈ events ++ [.finish elapsedMs] := by
    rw [h.token]
    simp
  unfold next
  dsimp only
  split
  · rename_i hready
    rw [Bool.and_eq_true] at hready
    refine h.of_same_stages nofun rfl [] rfl htoken fun r hr => ?_
    obtain rfl := Option.some.inj hr
    exact (h.conclude hready.2 elapsedMs).append _
  · exact h.of_same_stages nofun rfl [] rfl htoken fun r hr => (h.reports r hr).append _

theorem Invariant.next (h : t.Invariant events s) (e : ScanEvent) :
    t.Invariant (events ++ [e]) (t.next s e) := by
  cases e with
  | cancel =>
    refine h.of_same_stages nofun rfl [] rfl ?_ fun r hr => (h.reports r hr).append _
    exact iff_of_true rfl (by simp)
  | step f => exact h.step f
  | elsewhere event =>
    refine h.of_same_stages nofun rfl [event] rfl ?_ fun r hr => (h.reports r hr).append _
    show s.token = true ↔ _
    rw [h.token]
    simp
  | finish elapsedMs => exact h.finish elapsedMs

theorem Invariant.run (h : t.Invariant events s) (more : List ScanEvent) :
    t.Invariant (events ++ more) (t.run s more) := by
  induction more generalizing events s with
  | nil =>
    rw [List.append_nil]
    exact h
  | cons e rest ih =>
    have := ih (h.next e)
    rwa [List.append_assoc] at this

/-- Six steps of its own are enough for every worker, whatever the others do; the report can then be
made. -/
theorem Invariant.isOver (h : t.Invariant events s)
    (hsteps : ∀ f ∈ t.files, 6 ≤ events.count (.step f)) : t.isOver s = true := by
  refine List.all_eq_true.mpr fun f hf => ?_
  have hleft := h.left f
  have hsix := hsteps f hf
  have hzero : (s.stages f).left s.traffic = 0 := by omega
  exact Stage.isOver_of_left hzero

theorem exists_report (hover : t.isOver s = true) (elapsedMs : Nat) :
    ∃ r, (t.next s (.finish elapsedMs)).report = some r := by
  cases hreport : s.report with
  | some r => exact ⟨r, by simp [ScanTask.next, hreport]⟩
  | none => exact ⟨t.conclude s elapsedMs, by simp [ScanTask.next, hreport, hover]⟩

end ScanTask

end CodeAtlas
