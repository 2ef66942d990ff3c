/-
RunControl/Proofs/Store/Settled.lean

What it means that a state is settled.  Where callers only wish for things
(`Intent.IsWish`), a settled state says that no request is outstanding
(`Run.outstanding_of_isSettled`), with two exceptions:

* something was fetched while it was under way already (`Repeats`): one mark stands
  for two requests then, and the first answer takes it away
  (`settled_with_devices_outstanding`);
* polling was stopped while the status was fetched: that fetch goes on, and the phase
  `.stopping` counts as settled.

For the status this needs more than that no fetch runs: no answer of an older cycle may be
left in the queue (`Run.quiet`).
-/
import RunControl.Proofs.Store.Cadence
import RunControl.Proofs.Store.Outstanding
import RunControl.Proofs.Store.Quiet

namespace RunControl

namespace Intent

/-- Neither the outcome of a request nor a report of the timer. -/
def IsWish (i : Intent) : Prop :=
  i.settles? = none ∧ i.tick? = none

theorem IsWish.isPlain {i : Intent} (h : i.IsWish) : i.IsPlain := by
  refine ⟨?_, h.2⟩
  by_contra ha
  have hs := settles?_eq_systemStatus_iff.mpr (Option.isSome_iff_ne_none.mpr ha)
  rw [h.1] at hs
  cases hs

end Intent

namespace PollSide

open Intent

/-- Where an answer is waited for, a fetch runs or an answer is in the queue. -/
theorem Answering.pos {w : PollSide} {c : Cycle} (h : w.Answering c) :
    0 < w.fetches.length + w.queue.countP (fun i => i.answers?.isSome) := by
  rcases h with ⟨⟨n, hf, -⟩, -⟩ | ⟨-, ha⟩
  · rw [hf]
    exact Nat.lt_of_lt_of_le Nat.one_pos (Nat.le_add_right _ _)
  · have hpos : 0 < countReports answers? w.queue c := ha ▸ Nat.one_pos
    obtain ⟨i, hi, hc⟩ := List.countP_pos_iff.mp hpos
    have ha' : i.answers?.isSome = true := by
      rw [of_decide_eq_true hc]
      rfl
    exact Nat.lt_of_lt_of_le (List.countP_pos_iff.mpr ⟨i, hi, ha'⟩) (Nat.le_add_left _ _)

end PollSide

namespace Store

open PollSide

variable {s : Store} {is : List Intent} {interval : Nat}

/-! ### Settled states -/

theorem outstanding_systemStatus (s : Store) :
    s.outstanding .systemStatus = s.tasks.countP (fun t => t.request.cycle?.isSome)
      + s.queue.countP (fun i => i.answers?.isSome) := by
  have ht : ∀ q : Request, q.resource = .systemStatus ↔ q.cycle?.isSome = true := by
    intro q
    cases q <;> simp [Request.resource, Request.call, Call.resource, Request.cycle?]
  simp only [outstanding, ht, Intent.settles?_eq_systemStatus_iff, Bool.decide_eq_true]

/-- While no cycle waits for an answer, a status fetch is outstanding only if polling was
stopped during that fetch. -/
theorem Run.outstanding_systemStatus_eq_zero_iff (h : Run Intent.IsPlain (initial interval) is s)
    (hn : (State.cycles {} is).length < UInt64.size) (hf : s.state.poll.isFetching = false) :
    s.outstanding .systemStatus = 0 ↔ ∀ c, s.state.poll.phase ≠ .stopping c := by
  have hfits := (h.sound hn).polling.fits
  have hquiet := h.quiet hn
  have none : s.pollSide.fetches = [] → (∀ i ∈ s.queue, i.answers? = none) →
      s.outstanding .systemStatus = 0 := by
    intro hnil ha
    rw [outstanding_systemStatus, countP_fetching, hnil]
    simpa using ha
  unfold Poll.isFetching at hf
  generalize s.state.poll.phase = phase at hf hfits hquiet
  cases hfits with
  | idle fetches =>
    cases hquiet with | idle noAnswer =>
    simp [none fetches noAnswer]
  | waiting fetches =>
    cases hquiet with | waiting noAnswer =>
    simp [none fetches noAnswer]
  | fetching => cases hf
  | @stopping c answering =>
    -- the fetch that was stopped runs on, or its answer is in the queue
    have hpos := answering.pos
    change 0 < _ + s.queue.countP _ at hpos
    rw [outstanding_systemStatus, countP_fetching]
    have hne : ¬∀ d, Phase.stopping c ≠ .stopping d := fun h => h c rfl
    simp only [hne, iff_false]
    omega

theorem loading_eq_false_of_isSettled {s : State} (h : s.isSettled = true) (r : Resource) :
    s.loading.get r = false := by
  rw [State.isSettled, Bool.and_eq_true, State.loadingList, List.isEmpty_iff,
    List.filter_eq_nil_iff] at h
  exact Bool.eq_false_iff.mpr (h.1 r (Resource.mem_all r))

/-- Where callers only wish for things, nothing is outstanding in a settled state, except
for a resource that was fetched while it was under way already, and for the status if
polling was stopped during its fetch. -/
theorem Run.outstanding_of_isSettled (h : Run Intent.IsWish (initial interval) is s)
    (hn : (State.cycles {} is).length < UInt64.size) (hs : s.state.isSettled = true) :
    (∀ r, r ≠ .systemStatus → (r.isCommand = false → ¬Repeats is r) → s.outstanding r = 0) ∧
      (s.outstanding .systemStatus = 0 ↔ ∀ c, s.state.poll.phase ≠ .stopping c) := by
  refine ⟨?_, ?_⟩
  · intro r hr hrep
    have ha : ∀ i : Intent, i.IsWish → i.settles? ≠ some r := by
      intro i hi
      simp [hi.1]
    rw [h.outstanding_eq hr ha hrep, loading_eq_false_of_isSettled hs]
    rfl
  · have hf : s.state.poll.isFetching = false := by
      rw [State.isSettled, Bool.and_eq_true, Bool.not_eq_true'] at hs
      exact hs.2
    exact (h.mono fun _ hi => hi.isPlain).outstanding_systemStatus_eq_zero_iff hn hf

/-- Polling is stopped during the first fetch: the state is settled, and the fetch is the
only request that is outstanding. -/
theorem outstanding_of_isSettled_once_stopped :
    let s := (((initial 5).send .fetchStatus).applyNext.send .stopPolling).applyNext
    s.state.isSettled = true ∧ s.outstanding .devices = 0 ∧ s.outstanding .systemStatus ≠ 0 := by
  intro s
  have hr : Run Intent.IsWish (initial 5) [.fetchStatus, .stopPolling] s :=
    (((Run.refl.tail (.send ⟨rfl, rfl⟩)).tail (.apply rfl)).tail (.send ⟨rfl, rfl⟩)).tail
      (.apply rfl)
  have hs : s.state.isSettled = true := rfl
  have hp : s.state.poll.phase = .stopping ⟨0⟩ := rfl
  have hrep : ¬Repeats [.fetchStatus, .stopPolling] .devices := by
    rintro ⟨before, i, after, he, hi, -⟩
    have hm : i ∈ ([.fetchStatus, .stopPolling] : List Intent) := he ▸ by simp
    rcases List.mem_pair.mp hm with rfl | rfl <;> cases hi
  obtain ⟨hd, hstatus⟩ := hr.outstanding_of_isSettled (by decide) hs
  exact ⟨hs, hd .devices (by decide) fun _ => hrep, fun h => hstatus.mp h _ hp⟩

/-- The devices are fetched twice at once: after the first answer the state is settled, and
the second answer is still to come. -/
theorem settled_with_devices_outstanding :
    let twice := (((initial 5).send .fetchDevices).send .fetchDevices).applyNext.applyNext
    let task : Task := { number := 0, request := .devices }
    let s := (twice.finish task (.ok [])).applyNext
    Run (· = .fetchDevices) (initial 5) [.fetchDevices, .fetchDevices, .devicesFetched []] s ∧
      s.state.isSettled = true ∧ s.outstanding .devices = 1 := by
  intro twice task s
  let wishes : Intent → Prop := fun i => i = .fetchDevices
  have hi : wishes .fetchDevices := rfl
  have ht : Run wishes (initial 5) [.fetchDevices, .fetchDevices] twice :=
    (((Run.refl.tail (.send hi)).tail (.send hi)).tail (.apply rfl)).tail (.apply rfl)
  have hf : Step wishes twice [] (twice.finish task (.ok [])) := .finish List.mem_cons_self _
  refine ⟨(ht.tail hf).tail (.apply rfl), rfl, ?_⟩
  rfl

end Store

end RunControl
