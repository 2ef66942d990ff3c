/-
RunControl/Proofs/Store/Commands.lean

Commands are under way one at a time.  There is no lock for this: an intent sends its
command only if it is the one that sets the mark of that command, and the mark stays
until the outcome of the command is applied.  So as long as callers do not make up
outcomes of commands (`Intent.SparesCommands`), a command is marked exactly while a
request for it is outstanding, and there is never a second one
(`Run.command_outstanding_once`).

The switch `Interface.stopRun` follows the mark of the command to stop a run, because
whatever sets or takes away the one does so to the other (`State.stopRun_after`).
-/
import RunControl.Proofs.Store.Outstanding

namespace RunControl

namespace Intent

/-- An intent that is not the outcome of a command. -/
def SparesCommands (i : Intent) : Prop :=
  ∀ r, i.settles? = some r → r.isCommand = false

theorem SparesCommands.settles?_ne {i : Intent} {r : Resource} (h : i.SparesCommands)
    (hr : r.isCommand = true) : i.settles? ≠ some r := by
  intro hs
  rw [h r hs] at hr
  cases hr

/-- Outcomes of requests do not turn the switch of the interface. -/
theorem ne_setStopRun_of_mem_outcome (q : Request) (answer : q.call.Answer) :
    ∀ i ∈ outcome q answer, ∀ b, i ≠ .setStopRun b := by
  rintro _ hi b rfl
  rcases mem_outcome_cases hi with hs | ⟨m, hm⟩ | hs | hs <;> contradiction

end Intent

namespace State

variable {s : State} {i : Intent}

/-- The switch is set by the wish to stop a run and taken back by the outcome, unless it
is turned by hand. -/
theorem stopRun_after (s : State) (hi : ∀ b, i ≠ .setStopRun b) :
    (s.after i).interface.stopRun =
      if i.settles? = some .stopRun then false
      else if i.asks? = some .stopRun then true
      else s.interface.stopRun := by
  cases i with
  | setStopRun b => exact absurd rfl (hi b)
  | failed r f =>
    by_cases hr : r = .stopRun
    · subst hr
      rfl
    · have hs : (Intent.failed r f).settles? ≠ some .stopRun := by
        rintro h
        exact hr (Option.some.inj (Option.ite_none_left_eq_some.mp h).2)
      rw [if_neg hs]
      simp only [after, requestFailed, if_neg hr]
      rfl
  | configFetched config =>
    simp only [after, acceptConfig, settle, recheck, withMissing, onInterface]
    rfl
  | statusFailed c failure =>
    simp only [after, acceptFailure]
    split
    · split <;> rfl
    · rfl
  | statusFetched _ _ | setStatus _ | startRun _ | runStarted _ _ | deleteDevice _ =>
    simp only [after, startRun, runStarted, deleteDevice]
    split <;> rfl
  | _ => rfl

/-- So the switch stays with the mark of the command. -/
theorem stopRun_after_eq_loading (hi : ∀ b, i ≠ .setStopRun b)
    (h : s.interface.stopRun = s.loading.get .stopRun) :
    (s.after i).interface.stopRun = (s.after i).loading.get .stopRun := by
  have hf : i.asks? = some .stopRun → s.refuses i = false := by
    cases i <;> first | exact fun _ => rfl | nofun
  rw [stopRun_after s hi, get_loading_after s i (by decide), h]
  by_cases ha : i.asks? = some .stopRun
  · simp [ha, hf ha]
  · simp [ha]

theorem stopRun_replay_eq_loading {is : List Intent} (hi : ∀ i ∈ is, ∀ b, i ≠ .setStopRun b)
    (h : s.interface.stopRun = s.loading.get .stopRun) :
    (s.replay is).interface.stopRun = (s.replay is).loading.get .stopRun := by
  induction is generalizing s with
  | nil => exact h
  | cons i is ih =>
    rw [List.forall_mem_cons] at hi
    exact ih hi.2 (stopRun_after_eq_loading hi.1 h)

end State

namespace Store

variable {admits : Intent → Prop} {s : Store} {is : List Intent} {interval : Nat}

/-- Whoever sends what but outcomes of commands: of each command at most one request is
outstanding, and the command is marked exactly while there is one.  If nobody turns the
switch by hand, it is on exactly while the command to stop a run is marked. -/
theorem Run.command_outstanding_once (h : Run admits (initial interval) is s)
    (ha : ∀ i, admits i → i.SparesCommands) :
    (∀ r, r.isCommand = true →
      s.outstanding r ≤ 1 ∧ (s.state.loading.get r = true ↔ s.outstanding r = 1)) ∧
    ((∀ i, admits i → ∀ b, i ≠ .setStopRun b) →
      (s.state.interface.stopRun = true ↔ s.state.loading.get .stopRun = true)) := by
  refine ⟨?_, ?_⟩
  · intro r hr
    have hstatus : r ≠ .systemStatus := by
      rintro rfl
      cases hr
    have ho := h.outstanding_eq hstatus (fun i hi => (ha i hi).settles?_ne hr) (by simp [hr])
    rw [ho]
    cases s.state.loading.get r <;> simp
  · intro hswitch
    have hi := (h.forall_intents hswitch Intent.ne_setStopRun_of_mem_outcome (fun _ _ => nofun)
      (List.forall_mem_nil _)).1
    rw [h.state_eq, State.stopRun_replay_eq_loading hi rfl]

/-- A run is to be stopped twice; the second wish comes while the command is under way. -/
theorem command_outstanding_once_stopped_twice :
    let s := (((initial 5).send .stopRun).send .stopRun).applyNext.applyNext
    s.outstanding .stopRun = 1 ∧ s.state.interface.stopRun = true := by
  intro s
  let wishes : Intent → Prop := fun i => i = .stopRun
  have hi : wishes .stopRun := rfl
  have hr : Run wishes (initial 5) [.stopRun, .stopRun] s :=
    (((Run.refl.tail (.send hi)).tail (.send hi)).tail (.apply rfl)).tail (.apply rfl)
  have h := hr.command_outstanding_once (by rintro _ rfl; nofun)
  have hl : s.state.loading.get .stopRun = true := rfl
  exact ⟨(h.1 .stopRun rfl).2.mp hl, (h.2 (by rintro _ rfl; nofun)).mpr hl⟩

end Store

end RunControl
