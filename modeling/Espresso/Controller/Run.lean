import Espresso.Controller.Command
import Espresso.Controller.Tick

/-!
Runs of a controller: calls one after the other, each with what is read from outside and what the
medium refuses while the call is carried out.
-/

namespace Espresso

inductive Call where
  | command (x : Command)
  /-- The operation behind a command, called without the command: by itself it is no activity. -/
  | direct (x : Command)
  | applySection (name : String) (fields : Json)
  | applySettings (document : Json)
  | saveSection (n : Section)
  | saveAll
  | resetSettings
  | resetDaily
  | resetIdle
  | boot
  | tick

inductive Outcome where
  | reply (answer : Except Error Reply)
  | count (answer : Except Error Nat)
  | stored (answer : Except StorageError Unit)
  | nothing

structure Step where
  readings : Readings
  refuses : Access → Option StorageError
  call : Call

namespace Controller

def counted (c : Controller) (answer : Except Error (Nat × Controller)) : Outcome × Controller :=
  match answer with
  | .ok (n, c) => (.count (.ok n), c)
  | .error e => (.count (.error e), c)

def answered (result : Except Error Reply × Controller) : Outcome × Controller :=
  (.reply result.1, result.2)

def saved (result : Except StorageError Unit × Controller) : Outcome × Controller :=
  (.stored result.1, result.2)

def call (c : Controller) (r : Readings) : Call → Outcome × Controller
  | .command x => answered (c.handle r x)
  | .direct x => answered (c.perform r x)
  | .applySection name fields => c.counted (c.applySection name fields)
  | .applySettings document => c.counted (c.applySettings document)
  | .saveSection n => saved (c.saveSection n)
  | .saveAll => saved c.saveAll
  | .resetSettings => saved c.resetSettings
  | .resetDaily => (.nothing, c.resetDaily)
  | .resetIdle => (.nothing, c.resetIdle r)
  | .boot => (.nothing, c.boot r)
  | .tick => (.nothing, c.tick r)

def facing (c : Controller) (s : Step) : Controller :=
  { c with outbox := [], medium := { c.medium with refuses := s.refuses, attempts := [] } }

def outcome (c : Controller) (s : Step) : Outcome := ((c.facing s).call s.readings s.call).1

/-- The controller after a step. Its outbox and its attempts are those of the step. -/
def after (c : Controller) (s : Step) : Controller := ((c.facing s).call s.readings s.call).2

def run (c : Controller) (steps : List Step) : Controller := steps.foldl after c

theorem run_nil (c : Controller) : c.run [] = c := rfl

theorem run_cons (c : Controller) (s : Step) (steps : List Step) :
    c.run (s :: steps) = (c.after s).run steps := rfl

theorem run_append (c : Controller) (first second : List Step) :
    c.run (first ++ second) = (c.run first).run second := List.foldl_append

theorem run_induction {P : Controller → Prop} {c : Controller} {steps : List Step} (hc : P c)
    (hs : ∀ d, ∀ s ∈ steps, P d → P (d.after s)) : P (c.run steps) := by
  induction steps generalizing c with
  | nil => exact hc
  | cons s steps ih =>
    rw [run_cons]
    apply ih (hs c s (List.mem_cons_self ..) hc)
    intro d t ht
    exact hs d t (List.mem_cons_of_mem _ ht)

def Forward : Nat → List Step → Prop
  | _, [] => True
  | now, s :: steps => now ≤ s.readings.uptime ∧ Forward s.readings.uptime steps

def lastUptime (now : Nat) (steps : List Step) : Nat :=
  steps.foldl (fun _ s => s.readings.uptime) now

def Throughout (P : Controller → Step → Prop) : Controller → List Step → Prop
  | _, [] => True
  | c, s :: steps => P c s ∧ (c.after s).Throughout P steps

variable {c : Controller} {now : Nat} {steps : List Step}

theorem forward_append {pre rest : List Step} : Forward now (pre ++ rest) ↔
    Forward now pre ∧ Forward (lastUptime now pre) rest := by
  induction pre generalizing now with
  | nil => exact (and_iff_right trivial).symm
  | cons s pre ih => exact (and_congr_right fun _ => ih).trans and_assoc.symm

theorem Forward.le_lastUptime (h : Forward now steps) : now ≤ lastUptime now steps := by
  induction steps generalizing now with
  | nil => exact Nat.le_refl now
  | cons s steps ih => exact Nat.le_trans h.1 (ih h.2)

theorem throughout_append {P : Controller → Step → Prop} {pre rest : List Step} :
    c.Throughout P (pre ++ rest) ↔ c.Throughout P pre ∧ (c.run pre).Throughout P rest := by
  induction pre generalizing c with
  | nil => exact (and_iff_right trivial).symm
  | cons s pre ih => exact (and_congr_right fun _ => ih).trans and_assoc.symm

theorem throughout_true : c.Throughout (fun _ _ => True) steps := by
  induction steps generalizing c with
  | nil => trivial
  | cons s steps ih => exact ⟨trivial, ih⟩

theorem throughout_of_forall {P : Step → Prop} (h : ∀ s ∈ steps, P s) :
    c.Throughout (fun _ s => P s) steps := by
  induction steps generalizing c with
  | nil => trivial
  | cons s steps ih =>
    exact ⟨h s (List.mem_cons_self ..), ih fun t ht => h t (List.mem_cons_of_mem _ ht)⟩

theorem Throughout.and {P Q : Controller → Step → Prop} (hp : c.Throughout P steps)
    (hq : c.Throughout Q steps) : c.Throughout (fun d s => P d s ∧ Q d s) steps := by
  induction steps generalizing c with
  | nil => trivial
  | cons s steps ih => exact ⟨⟨hp.1, hq.1⟩, ih hp.2 hq.2⟩

theorem Throughout.mono {P Q : Controller → Step → Prop} (h : c.Throughout P steps)
    (hpq : ∀ d s, P d s → Q d s) : c.Throughout Q steps := by
  induction steps generalizing c with
  | nil => trivial
  | cons s steps ih => exact ⟨hpq c s h.1, ih h.2⟩

theorem Forward.run {P : Nat → Controller → Prop} {Q : Controller → Step → Prop}
    (hf : Forward now steps) (hq : c.Throughout Q steps) (hc : P now c)
    (hs : ∀ now d s, now ≤ s.readings.uptime → Q d s → P now d →
      P s.readings.uptime (d.after s)) :
    P (lastUptime now steps) (c.run steps) := by
  induction steps generalizing c now with
  | nil => exact hc
  | cons s steps ih => exact ih hf.2 hq.2 (hs now c s hf.1 hq.1 hc)

end Controller

end Espresso
