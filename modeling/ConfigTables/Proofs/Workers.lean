import Mathlib.Data.List.Infix
import Mathlib.Data.List.Perm.Basic
import Mathlib.Logic.Relation

/-!
    Workers that run beside each other. They are started one after another, finish in any order, some
    even before others start, and are joined in the order in which they were started. What is joined
    is then what the workers come to, in this order, whoever finished first (`Sound`). Every schedule
    ends, none is stuck before all workers are joined, and every order of finishing has a schedule.

    Work that is shared among workers looks at what they came to only when all are joined, and only then
    changes anything (`ForkJoin`). Until then the workers just read, so each of them has one result,
    and in every schedule the work comes to the end that it has without workers. -/

namespace ConfigTables

/-- Workers on their way: how many have started, the places of those that run, the finished ones by
place with what they came to, in the order in which they finished, and what the joined ones gave. -/
structure Workers (α : Type) where
  started : Nat
  running : List Nat
  finished : List (Nat × α)
  joined : List α

namespace Workers
variable {α : Type} {results : List α} {w w' : Workers α} {place : Nat} {a : α}

/-- Before the first worker. -/
def initial : Workers α := ⟨0, [], [], []⟩

/-- The places of the finished workers. -/
def finishers (w : Workers α) : List Nat := w.finished.map (·.1)

/-- The start of the next worker. -/
def start (w : Workers α) : Workers α :=
  { w with started := w.started + 1, running := w.started :: w.running }

/-- The end of the worker at a place. -/
def finish (w : Workers α) (place : Nat) (a : α) : Workers α :=
  { w with running := w.running.erase place, finished := w.finished ++ [(place, a)] }

/-- The join of the next worker. -/
def join (w : Workers α) (a : α) : Workers α := { w with joined := w.joined ++ [a] }

@[simp] theorem finishers_start (w : Workers α) : w.start.finishers = w.finishers := rfl

@[simp] theorem finishers_finish (w : Workers α) (place : Nat) (a : α) :
    (w.finish place a).finishers = w.finishers ++ [place] := List.map_append

@[simp] theorem finishers_join (w : Workers α) (a : α) : (w.join a).finishers = w.finishers := rfl

/-- One step of workers that come to these results. -/
inductive Step (results : List α) : Workers α → Workers α → Prop
  | start {w : Workers α} : w.started < results.length → Step results w w.start
  | finish {w : Workers α} {place : Nat} {a : α} : place ∈ w.running → results[place]? = some a →
      Step results w (w.finish place a)
  | join {w : Workers α} {a : α} : w.started = results.length → w.joined.length < results.length →
      (w.joined.length, a) ∈ w.finished → Step results w (w.join a)

/-- Some steps, one after the other. -/
def Steps (results : List α) : Workers α → Workers α → Prop := Relation.ReflTransGen (Step results)

/-! ### What is true on the way -/

/-- What is true of workers on their way to these results. -/
structure Sound (results : List α) (w : Workers α) : Prop where
  started : w.started ≤ results.length
  places : (w.running ++ w.finishers).Perm (List.range w.started)
  finished : ∀ place a, (place, a) ∈ w.finished → results[place]? = some a
  joined : w.joined <+: results

theorem Sound.initial : (initial : Workers α).Sound results where
  started := Nat.zero_le _
  places := .nil
  finished := by simp [Workers.initial]
  joined := List.nil_prefix

theorem Sound.start (h : w.Sound results) (hlt : w.started < results.length) :
    w.start.Sound results where
  started := hlt
  places := by
    rw [finishers_start, Workers.start, List.range_succ, List.cons_append]
    exact (h.places.cons _).trans (List.perm_append_singleton _ _).symm
  finished := h.finished
  joined := h.joined

theorem Sound.finish (h : w.Sound results) (hrunning : place ∈ w.running)
    (ha : results[place]? = some a) : (w.finish place a).Sound results where
  started := h.started
  places := by
    have hplace : (w.running.erase place ++ (w.finishers ++ [place])).Perm
        (w.running ++ w.finishers) := by
      rw [← List.append_assoc]
      refine (List.perm_append_singleton _ _).trans ?_
      exact ((List.perm_cons_erase hrunning).symm.append_right _)
    rw [finishers_finish]
    exact hplace.trans h.places
  finished := by
    intro place' a' hmem
    rcases List.mem_append.1 hmem with hmem | hmem
    · exact h.finished place' a' hmem
    · cases List.mem_singleton.1 hmem
      exact ha
  joined := h.joined

/-- The join of the next worker gives the next result. -/
theorem Sound.join (h : w.Sound results) (ha : (w.joined.length, a) ∈ w.finished) :
    (w.join a).Sound results where
  started := h.started
  places := h.places
  finished := h.finished
  joined := by
    obtain ⟨hlt, rfl⟩ := List.getElem?_eq_some_iff.1 (h.finished _ _ ha)
    exact List.concat_get_prefix h.joined hlt

theorem Sound.step (h : w.Sound results) (hstep : Step results w w') : w'.Sound results := by
  cases hstep with
  | start hlt => exact h.start hlt
  | finish hrunning ha => exact h.finish hrunning ha
  | join _ _ ha => exact h.join ha

theorem Sound.steps (h : w.Sound results) (hsteps : Steps results w w') : w'.Sound results := by
  induction hsteps with
  | refl => exact h
  | tail _ hstep ih => exact ih.step hstep

theorem Sound.joined_eq (h : w.Sound results) (hall : w.joined.length = results.length) :
    w.joined = results := h.joined.eq_of_length hall

/-- A worker that was started runs or has finished. -/
theorem Sound.running_or_finished (h : w.Sound results) (hlt : place < w.started) :
    place ∈ w.running ∨ ∃ a, (place, a) ∈ w.finished := by
  have hmem := h.places.mem_iff.2 (List.mem_range.2 hlt)
  refine (List.mem_append.1 hmem).imp_right fun hfinished => ?_
  obtain ⟨⟨place, a⟩, ha, rfl⟩ := List.mem_map.1 hfinished
  exact ⟨a, ha⟩

/-- Workers that are not all joined are never stuck. -/
theorem Sound.exists_step (h : w.Sound results) (hnot : w.joined.length ≠ results.length) :
    ∃ w', Step results w w' := by
  have hlt : w.joined.length < results.length := Nat.lt_of_le_of_ne h.joined.length_le hnot
  rcases Nat.lt_or_eq_of_le h.started with hstarted | hstarted
  · exact ⟨_, .start hstarted⟩
  · rcases h.running_or_finished (hstarted ▸ hlt) with hrunning | ⟨a, ha⟩
    · exact ⟨_, .finish hrunning (List.getElem?_eq_getElem hlt)⟩
    · exact ⟨_, .join hstarted hlt ha⟩

/-! ### The end of a schedule -/

/-- What workers have still to do: to start and finish, to finish, and to be joined. -/
def remaining (results : List α) (w : Workers α) : Nat :=
  2 * (results.length - w.started) + w.running.length + (results.length - w.joined.length)

theorem remaining_lt (h : Step results w w') : remaining results w' < remaining results w := by
  cases h with
  | start hlt =>
    simp only [remaining, start, List.length_cons]
    omega
  | finish hrunning _ =>
    have hpos := List.length_pos_of_mem hrunning
    simp only [remaining, finish, List.length_erase_of_mem hrunning]
    omega
  | join _ hlt _ =>
    simp only [remaining, join, List.length_append, List.length_singleton]
    omega

/-- All workers can start before the first one finishes. -/
theorem exists_started {count : Nat} (hle : count ≤ results.length) :
    ∃ w, Steps results initial w ∧ w.started = count ∧ w.finishers = [] := by
  induction count with
  | zero => exact ⟨initial, .refl, rfl, rfl⟩
  | succ count ih =>
    obtain ⟨w, hsteps, rfl, hnone⟩ := ih (Nat.le_of_succ_le hle)
    exact ⟨w.start, .tail hsteps (.start hle), rfl, hnone⟩

/-- Workers that run can finish in any order. -/
theorem exists_finished {order : List Nat} (horder : order.Perm w.running)
    (hlt : ∀ place ∈ order, place < results.length) :
    ∃ w', Steps results w w' ∧ w'.finishers = w.finishers ++ order ∧ w'.started = w.started ∧
      w'.running = [] := by
  induction order generalizing w with
  | nil => exact ⟨w, .refl, (List.append_nil _).symm, rfl, horder.nil_eq.symm⟩
  | cons place order ih =>
    rw [List.forall_mem_cons] at hlt
    obtain ⟨hrunning, hrest⟩ := List.cons_perm_iff_perm_erase.1 horder
    obtain ⟨last, hsteps, hlast, hstarted, hnone⟩ := ih (w := w.finish place results[place]) hrest hlt.2
    rw [finishers_finish, List.append_assoc] at hlast
    exact ⟨last, .head (.finish hrunning (List.getElem?_eq_getElem hlt.1)) hsteps, hlast, hstarted,
      hnone⟩

/-- Once all workers have finished, they can be joined. -/
theorem Sound.exists_joined (h : w.Sound results) (hstarted : w.started = results.length)
    (hnone : w.running = []) :
    ∃ w', Steps results w w' ∧ w'.finishers = w.finishers ∧ w'.joined = results := by
  induction hleft : results.length - w.joined.length generalizing w with
  | zero =>
    have hall : results.length ≤ w.joined.length := Nat.le_of_sub_eq_zero hleft
    exact ⟨w, .refl, rfl, h.joined.eq_of_length_le hall⟩
  | succ left ih =>
    have hlt : w.joined.length < results.length := by omega
    obtain ⟨a, ha⟩ := (h.running_or_finished (hstarted ▸ hlt)).resolve_left (by simp [hnone])
    have hnext : results.length - (w.join a).joined.length = left := by
      rw [Workers.join, List.length_append, List.length_singleton]
      omega
    obtain ⟨last, hsteps, hlast, hjoined⟩ := ih (h.join ha) hstarted hnone hnext
    exact ⟨last, .head (.join hstarted hlt ha) hsteps, hlast.trans (finishers_join w a), hjoined⟩

/-- For every order there is a schedule in which the workers finish in it, and all are joined. -/
theorem exists_schedule {order : List Nat} (horder : order.Perm (List.range results.length)) :
    ∃ w, Steps results initial w ∧ w.finishers = order ∧ w.joined = results := by
  obtain ⟨first, hstarts, hstarted, hnone⟩ := exists_started (Nat.le_refl results.length)
  have hplaces := (Sound.initial.steps hstarts).places
  rw [hnone, List.append_nil, hstarted] at hplaces
  have hlt : ∀ place ∈ order, place < results.length := fun place hplace =>
    List.mem_range.1 (horder.mem_iff.1 hplace)
  obtain ⟨next, hfinishes, hnext, hstarted', hrunning⟩ :=
    exists_finished (horder.trans hplaces.symm) hlt
  obtain ⟨last, hjoins, hlast, hjoined⟩ :=
    ((Sound.initial.steps hstarts).steps hfinishes).exists_joined (hstarted'.trans hstarted) hrunning
  rw [hnone, List.nil_append] at hnext
  exact ⟨last, (hstarts.trans hfinishes).trans hjoins, hlast.trans hnext, hjoined⟩

end Workers

/-! ### Shared work -/

/-- Work on its way that is shared among workers: the workers, what the work is to change, and the
answer once there is one. -/
structure ForkJoin (α σ ρ : Type) where
  workers : Workers α
  state : σ
  answer : Option ρ

namespace ForkJoin
variable {α σ ρ : Type} {results : List α} {ending : List α → σ → σ × ρ} {s : σ}
  {f f' : ForkJoin α σ ρ}

/-- Before the first worker. -/
def initial (s : σ) : ForkJoin α σ ρ := ⟨.initial, s, none⟩

/-- The end of the work: what was joined tells the new state and the answer. -/
def conclude (ending : List α → σ → σ × ρ) (f : ForkJoin α σ ρ) : ForkJoin α σ ρ :=
  { f with
    state := (ending f.workers.joined f.state).1
    answer := some (ending f.workers.joined f.state).2 }

/-- One step of work, or of one of its workers, that come to these results. -/
inductive Step (results : List α) (ending : List α → σ → σ × ρ) :
    ForkJoin α σ ρ → ForkJoin α σ ρ → Prop
  | work {f : ForkJoin α σ ρ} {w : Workers α} : f.workers.Step results w →
      Step results ending f { f with workers := w }
  | conclude {f : ForkJoin α σ ρ} : f.workers.joined.length = results.length → f.answer = none →
      Step results ending f (f.conclude ending)

/-- Some steps, one after the other. -/
def Steps (results : List α) (ending : List α → σ → σ × ρ) :
    ForkJoin α σ ρ → ForkJoin α σ ρ → Prop := Relation.ReflTransGen (Step results ending)

/-- What is true of work on its way from the state `s`: this is as before until there is an answer, and
then state and answer are those of the work without workers. -/
structure Reached (results : List α) (ending : List α → σ → σ × ρ) (s : σ) (f : ForkJoin α σ ρ) :
    Prop where
  workers : f.workers.Sound results
  waiting : f.answer = none → f.state = s
  answered : ∀ r, f.answer = some r → ending results s = (f.state, r)

theorem Reached.initial : Reached results ending s (initial s) where
  workers := .initial
  waiting := fun _ => rfl
  answered := nofun

theorem Reached.conclude (h : Reached results ending s f)
    (hall : f.workers.joined.length = results.length) (hnone : f.answer = none) :
    Reached results ending s (f.conclude ending) where
  workers := h.workers
  waiting := nofun
  answered := by
    rintro r ⟨⟩
    rw [ForkJoin.conclude, h.workers.joined_eq hall, h.waiting hnone]

theorem Reached.step (h : Reached results ending s f) (hstep : Step results ending f f') :
    Reached results ending s f' := by
  cases hstep with
  | work hw => exact ⟨h.workers.step hw, h.waiting, h.answered⟩
  | conclude hall hnone => exact h.conclude hall hnone

theorem Reached.steps (h : Reached results ending s f) (hsteps : Steps results ending f f') :
    Reached results ending s f' := by
  induction hsteps with
  | refl => exact h
  | tail _ hstep ih => exact ih.step hstep

/-- All of this is true in every schedule. -/
theorem Steps.reached (h : Steps results ending (initial s) f) : Reached results ending s f :=
  Reached.initial.steps h

/-- Work without an answer is never stuck. -/
theorem Reached.exists_step (h : Reached results ending s f) (hnone : f.answer = none) :
    ∃ f', Step results ending f f' := by
  by_cases hall : f.workers.joined.length = results.length
  · exact ⟨_, .conclude hall hnone⟩
  · obtain ⟨w, hw⟩ := h.workers.exists_step hall
    exact ⟨_, .work hw⟩

/-- What has still to be done: what the workers have to do, and the answer. -/
def remaining (results : List α) (f : ForkJoin α σ ρ) : Nat :=
  f.workers.remaining results + f.answer.isNone.toNat

theorem remaining_lt (h : Step results ending f f') : remaining results f' < remaining results f := by
  cases h with
  | work hw => exact Nat.add_lt_add_right (Workers.remaining_lt hw) _
  | conclude _ hnone => simp [remaining, conclude, hnone]

/-- Every schedule ends. -/
theorem wellFounded_step (results : List α) (ending : List α → σ → σ × ρ) :
    WellFounded fun f' f => Step results ending f f' :=
  Subrelation.wf remaining_lt (measure (remaining results)).wf

theorem steps_of_workers {w : Workers α} (h : Workers.Steps results f.workers w) :
    Steps results ending f { f with workers := w } := by
  induction h with
  | refl => exact .refl
  | tail _ hw ih => exact .tail ih (.work hw)

/-- For every order there is a schedule with an answer in which the workers finish in this order. -/
theorem exists_schedule (ending : List α → σ → σ × ρ) (s : σ) {order : List Nat}
    (horder : order.Perm (List.range results.length)) :
    ∃ f, Steps results ending (initial s) f ∧ f.workers.finishers = order ∧ f.answer.isSome := by
  obtain ⟨w, hw, hfinishers, hjoined⟩ := Workers.exists_schedule horder
  have hsteps : Steps results ending (initial s) ⟨w, s, none⟩ := steps_of_workers hw
  exact ⟨_, .tail hsteps (.conclude (congrArg List.length hjoined) rfl), hfinishers, rfl⟩

end ForkJoin

end ConfigTables
