import Mathlib.Data.List.Basic
import Mathlib.Data.Set.Finite.Basic
import Espresso.Controller.Configure
import Espresso.Proofs.Storage
import Espresso.Storage.Request

namespace Espresso

def Plain (name : String) : Prop := ':' ∉ name.toList

instance (name : String) : Decidable (Plain name) := inferInstanceAs (Decidable (¬_))

structure Bindings where
  get? : Address → Option Bytes
  finite : {a | get? a ≠ none}.Finite

namespace Bindings

def empty : Bindings := ⟨fun _ => none, by simp⟩

def bind (b : Bindings) (a : Address) (data : Bytes) : Bindings where
  get? c := if c = a then some data else b.get? c
  finite := by
    apply (b.finite.insert a).subset
    intro c hc
    by_cases hca : c = a
    · exact .inl hca
    · exact .inr (by simpa [hca] using hc)

def filter (b : Bindings) (keep : Address → Bool) : Bindings where
  get? c := if keep c then b.get? c else none
  finite := by
    apply b.finite.subset
    intro c hc hnone
    simp [hnone] at hc

def unbind (b : Bindings) (a : Address) : Bindings := b.filter fun c => c ≠ a

def clear (b : Bindings) (space : String) : Bindings := b.filter fun c => c.space ≠ space

def answer (b : Bindings) : Request → Answer
  | .read a buffer =>
    match b.get? a with
    | none => .read (.error .notFound) buffer
    | some data =>
      if data.length ≤ buffer.length then
        .read (.ok data.length) (data ++ buffer.drop data.length)
      else .read (.error .io) buffer
  | .write _ data => .changed (if data.length ≤ 4000 then .ok () else .error .full)
  | .delete _ => .changed (.ok ())
  | .contains a => .contains (b.get? a).isSome
  | .erase _ => .changed (.ok ())

def after (b : Bindings) : Request → Bindings
  | .read _ _ => b
  | .write a data => if data.length ≤ 4000 then b.bind a data else b
  | .delete a => b.unbind a
  | .contains _ => b
  | .erase space => b.clear space

def answers (b : Bindings) : List Request → List Answer
  | [] => []
  | r :: rs => b.answer r :: (b.after r).answers rs

end Bindings

namespace Request

def space : Request → String
  | read a _ => a.space
  | write a _ => a.space
  | delete a => a.space
  | contains a => a.space
  | erase space => space

def refusal : Request → Answer
  | read _ buffer => .read (.error .unavailable) buffer
  | write _ _ => .changed (.error .unavailable)
  | delete _ => .changed (.error .unavailable)
  | contains _ => .contains false
  | erase _ => .changed (.error .unavailable)

end Request

namespace Address

variable {a c : Address} {space other : String} {rest tail : List Char}

theorem takeWhile_path (hs : Plain space) (rest : List Char) :
    (spacePath space ++ rest).takeWhile (fun x => x ≠ ':') = space.toList := by
  have hmem : ∀ x ∈ space.toList, decide (x ≠ ':') = true := by
    intro x hx
    rw [decide_eq_true_eq]
    rintro rfl
    exact hs hx
  rw [spacePath, List.append_assoc, List.takeWhile_append_of_pos hmem]
  exact List.append_nil _

theorem spacePath_append_inj (hs : Plain space) (ho : Plain other) :
    spacePath space ++ rest = spacePath other ++ tail ↔ space = other ∧ rest = tail := by
  constructor
  · intro h
    have hspace := congrArg (List.takeWhile fun x => x ≠ ':') h
    rw [takeWhile_path hs, takeWhile_path ho, String.toList_inj] at hspace
    subst hspace
    exact ⟨rfl, List.append_cancel_left h⟩
  · rintro ⟨rfl, rfl⟩
    rfl

theorem path_eq_path_iff (ha : Plain a.space) (hc : Plain c.space) :
    c.path = a.path ↔ c = a := by
  cases a
  cases c
  rw [path, path, spacePath_append_inj hc ha, String.toList_inj, Address.mk.injEq]

theorem isPrefixOf_path_iff (hs : Plain space) (ha : Plain a.space) :
    (spacePath space).isPrefixOf a.path = true ↔ a.space = space := by
  rw [List.isPrefixOf_iff_prefix]
  constructor
  · rintro ⟨rest, h⟩
    exact ((spacePath_append_inj hs ha).mp h).1.symm
  · rintro rfl
    exact List.prefix_append ..

end Address

namespace Store

variable {s t : Store} {b : Bindings} {a : Address} {data : Bytes} {space : String} {r : Request}
  {rs : List Request}

structure Holds (s : Store) (b : Bindings) : Prop where
  available : s.available = true
  lookup_eq : ∀ a : Address, Plain a.space → s.lookup a.path = b.get? a

theorem holds_empty : empty.Holds .empty := ⟨rfl, fun _ _ => rfl⟩

theorem Holds.serve_read (h : s.Holds b) (ha : Plain a.space) (buffer : Bytes) :
    s.serve (.read a buffer) = (b.answer (.read a buffer), s) := by
  simp only [serve, readInto, read, h.available, if_true, h.lookup_eq a ha, Bindings.answer]
  cases b.get? a with
  | none => rfl
  | some data =>
    by_cases hfits : data.length ≤ buffer.length
    · simp only [if_pos hfits, if_neg (Nat.not_lt.mpr hfits)]
    · simp only [if_neg hfits, if_pos (Nat.not_le.mp hfits)]

theorem Holds.write (h : s.Holds b) (ha : Plain a.space) (ht : s.write a data = .ok t) :
    t.Holds (b.bind a data) where
  available := (write_eq_ok ht).1.trans h.available
  lookup_eq c hc := by
    simp only [lookup_write ht, Address.path_eq_path_iff ha hc, h.lookup_eq c hc, Bindings.bind]

theorem Holds.delete (h : s.Holds b) (ha : Plain a.space) (ht : s.delete a = .ok t) :
    t.Holds (b.unbind a) where
  available := (delete_eq_ok ht).1.trans h.available
  lookup_eq c hc := by
    rw [lookup_delete ht, h.lookup_eq c hc, Bindings.unbind, Bindings.filter]
    by_cases hca : c = a <;> simp [Address.path_eq_path_iff ha hc, hca]

theorem Holds.erase (h : s.Holds b) (hs : Plain space) (ht : s.erase space = .ok t) :
    t.Holds (b.clear space) where
  available := (erase_eq_ok ht).1.trans h.available
  lookup_eq c hc := by
    rw [lookup_erase ht, h.lookup_eq c hc, Bindings.clear, Bindings.filter]
    by_cases hcs : c.space = space <;> simp [Address.isPrefixOf_path_iff hs hc, hcs]

theorem Holds.serve (h : s.Holds b) (hr : Plain r.space) :
    (s.serve r).1 = b.answer r ∧ (s.serve r).2.Holds (b.after r) := by
  cases r with
  | read a buffer =>
    rw [h.serve_read hr]
    exact ⟨rfl, h⟩
  | write a data =>
    rw [Store.serve, Bindings.answer, Bindings.after]
    by_cases hfits : data.length ≤ 4000
    · obtain ⟨t, ht⟩ := exists_write (a := a) h.available hfits
      rw [ht, if_pos hfits, if_pos hfits]
      exact ⟨rfl, h.write hr ht⟩
    · have hfull : s.write a data = .error .full := by
        rw [Store.write, if_pos h.available]
        exact if_pos (Nat.not_le.mp hfits)
      rw [hfull, if_neg hfits, if_neg hfits]
      exact ⟨rfl, h⟩
  | delete a =>
    obtain ⟨t, ht⟩ := exists_delete (a := a) h.available
    rw [Store.serve, ht]
    exact ⟨rfl, h.delete hr ht⟩
  | contains a =>
    refine ⟨?_, h⟩
    rw [Store.serve, contains, h.available, h.lookup_eq a hr]
    rfl
  | erase space =>
    obtain ⟨t, ht⟩ := exists_erase h.available space
    rw [Store.serve, ht]
    exact ⟨rfl, h.erase hr ht⟩

theorem Holds.answers (h : s.Holds b) (hrs : ∀ r ∈ rs, Plain r.space) :
    s.answers rs = b.answers rs := by
  induction rs generalizing s b with
  | nil => rfl
  | cons r rs ih =>
    obtain ⟨hr, hrs⟩ := List.forall_mem_cons.mp hrs
    obtain ⟨hanswer, hholds⟩ := h.serve hr
    rw [Store.answers, Bindings.answers, hanswer, ih hholds hrs]

theorem serve_unavailable (r : Request) : unavailable.serve r = (r.refusal, unavailable) := by
  cases r <;> rfl

theorem answers_unavailable (rs : List Request) : unavailable.answers rs = rs.map Request.refusal := by
  induction rs with
  | nil => rfl
  | cons r rs ih => rw [answers, serve_unavailable, ih, List.map_cons]

/-- A store that is there answers as a finite map does, as long as no space has a colon in its name;
keys may have some. One that is not there refuses everything. The names that the controller uses have
no colons. -/
theorem answers_as_bindings :
    (∀ rs : List Request, (∀ r ∈ rs, Plain r.space) →
      empty.answers rs = Bindings.empty.answers rs) ∧
    (∀ rs : List Request, unavailable.answers rs = rs.map Request.refusal) ∧
    (∀ a ∈ [Statistics.address, ShotHistory.address, ScheduleTable.address] ++
      Section.all.map Settings.address, Plain a.space ∧ Plain a.key) ∧
    ∀ space ∈ Controller.spaces, Plain space :=
  ⟨fun _ => holds_empty.answers, answers_unavailable, by decide, by decide⟩

-- With colons in its name a space can be erased together with another.
example : empty.answers [.write ⟨"a::b", "k"⟩ [1], .erase "a", .contains ⟨"a::b", "k"⟩] =
    [.changed (.ok ()), .changed (.ok ()), .contains false] := rfl

theorem answers_as_bindings_of_prefix :
    let rs : List Request := [.write ⟨"shot", "k"⟩ [1], .write ⟨"shots", "k"⟩ [2, 3],
      .erase "shot", .contains ⟨"shot", "k"⟩, .delete ⟨"shot", "k"⟩,
      .read ⟨"shots", "k"⟩ [7, 8, 9], .read ⟨"shots", "k"⟩ [7]]
    (∀ r ∈ rs, Plain r.space) ∧ empty.answers rs = Bindings.empty.answers rs ∧
      Bindings.empty.answers rs = [.changed (.ok ()), .changed (.ok ()), .changed (.ok ()),
        .contains false, .changed (.ok ()), .read (.ok 2) [2, 3, 9], .read (.error .io) [7]] := by
  intro rs
  have hplain : ∀ r ∈ rs, Plain r.space := by decide
  exact ⟨hplain, answers_as_bindings.1 rs hplain, rfl⟩

end Store

end Espresso
