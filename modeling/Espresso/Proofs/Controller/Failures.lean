import Mathlib.Data.List.Forall2
import Espresso.Proofs.Controller.Memory

namespace Espresso

structure Observation where
  outcome : Outcome
  settings : Settings
  stats : Statistics
  history : ShotHistory
  machine : Machine
  engine : ScheduleEngine
  events : List Event

def Step.SameInput (s t : Step) : Prop := s.readings = t.readings ∧ s.call = t.call

namespace Controller

def observation (c : Controller) (s : Step) : Observation where
  outcome := s.call.answer (c.outcome s)
  settings := (c.after s).settings
  stats := (c.after s).stats
  history := (c.after s).history
  machine := (c.after s).machine
  engine := (c.after s).engine
  events := (c.after s).outbox

def observations (c : Controller) : List Step → List Observation
  | [] => []
  | s :: steps => c.observation s :: (c.after s).observations steps

theorem memory_facing {c d : Controller} {s t : Step} (h : c.memory = d.memory) :
    (c.facing s).memory = (d.facing t).memory :=
  congrArg (fun m : Controller => { m with outbox := [] }) h

theorem step_congr {c d : Controller} {s t : Step} (h : c.memory = d.memory) (hst : s.SameInput t)
    (hs : s.call.reliesOnStore = false) :
    (c.after s).memory = (d.after t).memory ∧ c.observation s = d.observation t := by
  obtain ⟨hr, hq⟩ := hst
  have hf : (c.facing s).memory = (d.facing t).memory := memory_facing h
  have hc := memory_call (c.facing s) s.readings s.call hs
  have hd := memory_call (d.facing t) t.readings t.call (hq ▸ hs)
  have ha : (c.after s).memory = (d.after t).memory := by
    rw [after, after, hc.1, hd.1, hf, hr, hq]
  have ho : s.call.answer (c.outcome s) = t.call.answer (d.outcome t) := by
    rw [outcome, outcome, hc.2, hd.2, hf, hr, hq]
  refine ⟨ha, ?_⟩
  have view (e : Controller) (f : Step) : e.observation f =
      ⟨f.call.answer (e.outcome f), (e.after f).memory.settings, (e.after f).memory.stats,
        (e.after f).memory.history, (e.after f).memory.machine, (e.after f).memory.engine,
        (e.after f).memory.outbox⟩ := rfl
  rw [view, view, ho, ha]

theorem observations_congr {c d : Controller} {first second : List Step} (h : c.memory = d.memory)
    (hst : List.Forall₂ Step.SameInput first second)
    (hs : ∀ s ∈ first, s.call.reliesOnStore = false) :
    c.observations first = d.observations second := by
  induction hst generalizing c d with
  | nil => rfl
  | @cons s t first second hst _ ih =>
    obtain ⟨hm, ho⟩ := step_congr h hst (hs s (List.mem_cons_self ..))
    rw [observations, observations, ho, ih hm fun u hu => hs u (List.mem_cons_of_mem _ hu)]

/-- Neither what the store holds nor what fails in it can be seen from outside. -/
theorem observations_with_any_store (c : Controller) (m₁ m₂ : Medium) {first second : List Step}
    (hst : List.Forall₂ Step.SameInput first second)
    (hs : ∀ s ∈ first, s.call.reliesOnStore = false) :
    ({ c with medium := m₁ } : Controller).observations first =
      ({ c with medium := m₂ } : Controller).observations second :=
  observations_congr rfl hst hs

theorem observations_of_failing_reset :
    let c := (blank default (.reliable .empty)).boot ⟨0, none, 0⟩
    let works : Step := ⟨⟨1000, none, 0⟩, fun _ => none, .command .factoryReset⟩
    let fails : Step := ⟨⟨1000, none, 0⟩, fun _ => some .io, .command .factoryReset⟩
    ({ c with medium := .reliable .empty } : Controller).observations [works] =
      ({ c with medium := .reliable .unavailable } : Controller).observations [fails] :=
  observations_with_any_store _ _ _ (.cons ⟨rfl, rfl⟩ .nil) (by simp [Call.reliesOnStore])

end Controller

end Espresso
