import ClusterEvidence.Proofs.Gather.Tracing
import ClusterEvidence.Proofs.Run.Journal
import ClusterEvidence.Proofs.Run.Runner
import Mathlib.Data.List.Induction

/-!
# The life of a run

A run is started, gathers and is stopped in any order, each time with a recorder of any kind,
and in between its surroundings may become anything (`Runner.Call`). Of these calls the log keeps
the starts, with their status, and the stops. A run is active if a start that succeeded was not
followed by a stop (`Runner.Active`), and that is what a run remembers
(`Runner.started_iff_active`).

`Runner.runOnce_iff_active` : an active run gathers, and any other answers at once that it was not
started. So it does not come down to the last start or stop : a start that fails while a run is
active leaves it active, though its recorder may have been closed (`Runner.failed_start_gathers`).
-/

namespace ClusterEvidence

open Surroundings (onSnd)

variable {σ ε : Type}

/-- The same recorder in a state that carries `κ` as well. -/
def Recorder.beside (κ : Type) (rec : Recorder σ ε) : Recorder (κ × σ) ε where
  openRun := fun run => onSnd (rec.openRun run)
  record := fun r => onSnd (rec.record r)
  flush := onSnd rec.flush
  close := onSnd rec.close
  location := onSnd rec.location

namespace Runner

/-! ## Histories -/

/-- What is done with a run, or the state becomes another one. -/
inductive Call (σ ε : Type)
  | start (rec : Recorder σ ε)
  | runOnce (rec : Recorder σ ε)
  | stop (rec : Recorder σ ε)
  | meanwhile (s : σ)

/-- A start with its status, or a stop. -/
inductive Event
  | started (st : Status)
  | stopped

/-- A run after some calls, with the starts and stops among them. -/
structure History (σ : Type) where
  log : List Event
  run : Runner
  state : σ

section Histories

variable (env : Surroundings σ) (src : Source σ)

/-- Do a call after others. -/
def History.perform (x : History σ) : Call σ ε → History σ
  | .start rec =>
    let y := x.run.start env rec x.state
    ⟨x.log ++ [.started y.1.1], y.1.2, y.2⟩
  | .runOnce rec =>
    let y := x.run.runOnce env rec src x.state
    ⟨x.log, y.1.2, y.2⟩
  | .stop rec =>
    let y := x.run.stop rec x.state
    ⟨x.log ++ [.stopped], y.1, y.2⟩
  | .meanwhile s => { x with state := s }

/-- A new run after calls. -/
def history (config : Config) (configPath : Bytes) (s : σ) (calls : List (Call σ ε)) :
    History σ :=
  calls.foldl (History.perform env src) ⟨[], { config, configPath }, s⟩

end Histories

/-- Some start has succeeded, and there was no stop since. -/
def Active (log : List Event) : Prop :=
  ∃ before st after, log = before ++ .started st :: after ∧ st.isOk = true ∧ Event.stopped ∉ after

theorem not_active_nil : ¬ Active [] := by
  rintro ⟨before, st, after, hlog, -⟩
  simp at hlog

/-- The last start makes a run active, or it was active before and is not stopped. -/
theorem active_concat {log : List Event} {e : Event} : Active (log ++ [e]) ↔
    (∃ st, e = .started st ∧ st.isOk = true) ∨ Active log ∧ e ≠ .stopped := by
  constructor
  · rintro ⟨before, st, after, hlog, hok, hafter⟩
    rcases List.eq_nil_or_concat after with rfl | ⟨after, last, rfl⟩
    · obtain ⟨-, hlast⟩ := List.append_inj' hlog rfl
      exact .inl ⟨st, List.singleton_inj.1 hlast, hok⟩
    · rw [List.concat_eq_append, ← List.cons_append, ← List.append_assoc] at hlog
      obtain ⟨rfl, hlast⟩ := List.append_inj' hlog rfl
      obtain rfl : e = last := List.singleton_inj.1 hlast
      rw [List.concat_eq_append, List.mem_append, List.mem_singleton, not_or] at hafter
      exact .inr ⟨⟨before, st, after, rfl, hok, hafter.1⟩, Ne.symm hafter.2⟩
  · rintro (⟨st, rfl, hok⟩ | ⟨⟨before, st, after, rfl, hok, hafter⟩, he⟩)
    · exact ⟨log, st, [], rfl, hok, List.not_mem_nil⟩
    · refine ⟨before, st, after ++ [e], by rw [List.append_assoc, List.cons_append], hok, ?_⟩
      rw [List.mem_append, List.mem_singleton, not_or]
      exact ⟨hafter, Ne.symm he⟩

/-- A run is active after a start that succeeds, or if it was before. -/
theorem active_concat_started {log : List Event} {st : Status} :
    Active (log ++ [.started st]) ↔ st.isOk = true ∨ Active log := by
  simp [active_concat]

/-- A run that was stopped is not active. -/
theorem not_active_concat_stopped (log : List Event) : ¬ Active (log ++ [.stopped]) := by
  simp [active_concat]

/-- How the last of the starts and stops leaves a run active. -/
theorem active_iff_last {log : List Event} : Active log ↔
    ∃ earlier st, log = earlier ++ [.started st] ∧ (st.isOk = true ∨ Active earlier) := by
  constructor
  · intro h
    rcases List.eq_nil_or_concat log with rfl | ⟨earlier, e, rfl⟩
    · exact absurd h not_active_nil
    · rw [List.concat_eq_append] at h ⊢
      cases e with
      | started st => exact ⟨earlier, st, rfl, active_concat_started.1 h⟩
      | stopped => exact absurd h (not_active_concat_stopped earlier)
  · rintro ⟨earlier, st, rfl, h⟩
    exact active_concat_started.2 h

variable {env : Surroundings σ} {src : Source σ}

/-- Every call keeps a run started while it is active. -/
theorem perform_active {x : History σ} (h : x.run.started = true ↔ Active x.log)
    (c : Call σ ε) :
    (x.perform env src c).run.started = true ↔ Active (x.perform env src c).log := by
  cases c with
  | start rec =>
    show (x.run.start env rec x.state).1.2.started = true ↔
      Active (x.log ++ [.started (x.run.start env rec x.state).1.1])
    rw [started_start, Bool.or_eq_true, h, active_concat_started]
  | runOnce rec =>
    show (x.run.runOnce env rec src x.state).1.2.started = true ↔ Active x.log
    rw [started_runOnce, h]
  | stop rec => exact iff_of_false Bool.false_ne_true (not_active_concat_stopped _)
  | meanwhile s => exact h

/-- A run knows whether it is active. -/
theorem started_iff_active (config : Config) (configPath : Bytes) (s : σ)
    (calls : List (Call σ ε)) :
    let x := history env src config configPath s calls
    x.run.started = true ↔ Active x.log := by
  unfold history
  induction calls using List.reverseRecOn with
  | nil => exact iff_of_false Bool.false_ne_true not_active_nil
  | append_singleton calls c ih =>
    rw [List.foldl_append]
    exact perform_active ih c

/-! ## What a batch asks for -/

theorem finish_beside {κ : Type} (rec : Recorder σ ε) (r : Runner) (gathered : Status) :
    finish (env.beside κ) (rec.beside κ) r gathered = onSnd (finish env rec r gathered) := by
  funext ⟨k, s⟩
  rw [finish_run, onSnd, finish_run]
  show (if (rec.flush s).1.isOk then _ else _ : StateM (κ × σ) Status) _ = _
  split
  · rfl
  · rfl

theorem beforeFlush_beside {κ : Type} (gathered : Status) (k : κ) (s : σ) :
    beforeFlush (env.beside κ) gathered (k, s) = (k, beforeFlush env gathered s) := by
  unfold beforeFlush
  split
  · rfl
  · rfl

variable (env src) in
/-- A run that was started does the same over a traced source, and asks for the operators. -/
theorem runOnce_traced {r : Runner} (h : r.started = true) (rec : Recorder σ ε) (s : σ) :
    let traced :=
      r.runOnce (env.beside (List Asked)) (rec.beside (List Asked)) src.traced ([], s)
    r.runOnce env rec src s = (traced.1, traced.2.2) ∧ Asks traced.2.1 := by
  intro traced
  have hbatch := r.gatherer.gather_traced env src rec.record r.config.reportNamespace r.cache s
  simp only [traced, runOnce_started h]
  generalize hbeside : r.gatherer.gather (env.beside (List Asked)) src.traced
    (rec.beside (List Asked)).record r.config.reportNamespace (r.cache, ([], s)) = x
  obtain ⟨hplain, hasks⟩ := hbeside ▸ hbatch
  rw [hplain, finish_beside]
  split
  · exact ⟨rfl, hasks⟩
  · rw [beforeFlush_beside]
    exact ⟨rfl, hasks⟩

/-! ## When a run gathers -/

/-- What a run does when it is to gather, after any calls. Over a traced source it does the same.
If it is active it gathers, and asks for the operators first. If not it answers that it was not
started, asks for nothing, and stays as it is, as does the state. It is active if the last start
or stop was a start, and that start succeeded or found it active. -/
theorem runOnce_iff_active (env : Surroundings σ) (src : Source σ) (config : Config)
    (configPath : Bytes) (s : σ) (calls : List (Call σ ε)) (rec : Recorder σ ε) :
    let x := history env src config configPath s calls
    let plain := x.run.runOnce env rec src x.state
    let traced :=
      x.run.runOnce (env.beside (List Asked)) (rec.beside (List Asked)) src.traced ([], x.state)
    plain = (traced.1, traced.2.2) ∧
      (Asks traced.2.1 ↔ Active x.log) ∧
      (¬ Active x.log → plain = ((notStarted, x.run), x.state) ∧ traced.2.1 = []) ∧
      (Active x.log ↔
        ∃ earlier st, x.log = earlier ++ [.started st] ∧ (st.isOk = true ∨ Active earlier)) := by
  intro x plain traced
  have hstarted : x.run.started = true ↔ Active x.log :=
    started_iff_active config configPath s calls
  by_cases hactive : Active x.log
  · obtain ⟨hplain, hasks⟩ := runOnce_traced env src (hstarted.2 hactive) rec x.state
    exact ⟨hplain, iff_of_true hasks hactive, fun h => absurd hactive h, active_iff_last⟩
  · have hidle : x.run.started = false := Bool.not_eq_true _ ▸ fun h => hactive (hstarted.1 h)
    have hplain : plain = ((notStarted, x.run), x.state) := runOnce_unstarted hidle x.state
    have htraced : traced = ((notStarted, x.run), ([], x.state)) := runOnce_unstarted hidle _
    rw [hplain, htraced]
    refine ⟨rfl, iff_of_false ?_ hactive, fun _ => ⟨rfl, rfl⟩, active_iff_last⟩
    rintro ⟨answer, rest, hlog⟩
    cases hlog

/-- A recorder that takes everything, and can be opened or not. -/
def openable (st : Status) : Recorder Unit Unit where
  openRun := fun _ => pure st
  record := fun _ => pure .ok
  flush := pure .ok
  close := pure ()
  location := pure "out"

/-- Of a run that was started, stopped and started again, what comes behind a start gathers, and
what comes behind the stop does not. -/
theorem restarted_gathers :
    let calls := [Call.start (openable .ok), .runOnce (openable .ok), .stop (openable .ok)]
    let x := history RunDirectory.quiet emptyCluster {} "cfg.yaml" () calls
    let y := history RunDirectory.quiet emptyCluster {} "cfg.yaml" ()
      (calls ++ [.start (openable .ok)])
    x.run.runOnce RunDirectory.quiet (openable .ok) emptyCluster x.state =
        ((notStarted, x.run), x.state) ∧
      Active y.log ∧
      Asks (y.run.runOnce (RunDirectory.quiet.beside (List Asked))
        ((openable .ok).beside (List Asked)) emptyCluster.traced ([], y.state)).2.1 := by
  intro calls x y
  have hstopped : ¬ Active x.log := not_active_concat_stopped [.started .ok]
  have hstarted : Active y.log := active_concat_started.2 (.inl rfl)
  have hidle := (runOnce_iff_active RunDirectory.quiet emptyCluster {} "cfg.yaml" () calls
    (openable .ok)).2.2.1 hstopped
  have hasks := (runOnce_iff_active RunDirectory.quiet emptyCluster {} "cfg.yaml" ()
    (calls ++ [.start (openable .ok)]) (openable .ok)).2.1.2 hstarted
  exact ⟨hidle.1, hstarted, by simpa only [y] using hasks⟩

/-- A start that fails while a run is active leaves it active : the last start failed, and the
run gathers all the same. -/
theorem failed_start_gathers :
    let refused : Status := ⟨.internal, "later"⟩
    let x := history RunDirectory.quiet emptyCluster {} "cfg.yaml" ()
      [Call.start (openable .ok), .start (openable refused)]
    x.log = [.started .ok, .started refused] ∧ refused.isOk = false ∧
      Asks (x.run.runOnce (RunDirectory.quiet.beside (List Asked))
        ((openable refused).beside (List Asked)) emptyCluster.traced ([], x.state)).2.1 := by
  intro refused x
  exact ⟨rfl, rfl, (runOnce_traced _ _ rfl (openable refused) x.state).2⟩

end Runner

end ClusterEvidence
