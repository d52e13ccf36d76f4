import Espresso.Storage.Medium

namespace Espresso

namespace Store

variable {s t : Store} {a : Address} {data : Bytes} {space : String}

theorem find?_filter_of_imp {α : Type} {p q : α → Bool} (l : List α) (h : ∀ x ∈ l, p x → q x) :
    (l.filter q).find? p = l.find? p := by
  induction l with
  | nil => rfl
  | cons x l ih =>
    have ih := ih fun y hy => h y (List.mem_cons_of_mem _ hy)
    by_cases hq : q x
    · rw [List.filter_cons_of_pos hq, List.find?_cons, List.find?_cons, ih]
    · have hp : ¬p x := fun hp => hq (h x (List.mem_cons_self ..) hp)
      rw [List.filter_cons_of_neg hq, List.find?_cons_of_neg hp, ih]

theorem lookup_eq_none {path : List Char} : s.lookup path = none ↔ ∀ c ∈ s.cells, c.1 ≠ path := by
  simp [lookup]

theorem lookup_filter (s : Store) (keep : List Char → Bool) (path : List Char) :
    ({ s with cells := s.cells.filter fun c => keep c.1 } : Store).lookup path =
      if keep path then s.lookup path else none := by
  split
  · next h =>
    rw [lookup, lookup, find?_filter_of_imp]
    simp
    rintro a b - rfl
    exact h
  · next h =>
    rw [lookup_eq_none]
    intro c hc hpath
    simp [← hpath, (List.mem_filter.mp hc).2] at h

theorem write_eq_ok (h : s.write a data = .ok t) :
    t.available = s.available ∧ t.lookup a.path = some data ∧
      ∀ path, path ≠ a.path → t.lookup path = s.lookup path := by
  simp only [write] at h
  split at h
  · split at h
    · cases h
    · obtain rfl := Except.ok.inj h
      refine ⟨rfl, by simp [lookup], ?_⟩
      intro path hp
      rw [lookup, lookup, List.find?_cons_of_neg (by simpa using Ne.symm hp), find?_filter_of_imp]
      intro c _ hc
      simp only [decide_eq_true_eq] at hc ⊢
      rwa [hc]
  · cases h

theorem delete_eq_ok (h : s.delete a = .ok t) :
    t.available = s.available ∧ t.lookup a.path = none ∧
      ∀ path, path ≠ a.path → t.lookup path = s.lookup path := by
  simp only [delete] at h
  split at h
  · obtain rfl := Except.ok.inj h
    refine ⟨rfl, ?_, ?_⟩
    · rw [lookup_eq_none]
      intro c hc
      simpa using (List.mem_filter.mp hc).2
    · intro path hp
      rw [lookup, lookup, find?_filter_of_imp]
      intro c _ hc
      simp only [decide_eq_true_eq] at hc ⊢
      rwa [hc]
  · cases h

theorem erase_eq_ok (h : s.erase space = .ok t) :
    t.available = s.available ∧ (∀ a : Address, a.space = space → t.lookup a.path = none) ∧
      ∀ path, s.lookup path = none → t.lookup path = none := by
  simp only [erase] at h
  split at h
  · obtain rfl := Except.ok.inj h
    refine ⟨rfl, ?_, ?_⟩
    · rintro a rfl
      rw [lookup_eq_none]
      intro c hc hpath
      have hp := (List.mem_filter.mp hc).2
      rw [hpath, Address.path, List.isPrefixOf_iff_prefix.mpr (List.prefix_append ..)] at hp
      cases hp
    · intro path hn
      rw [lookup_eq_none] at hn ⊢
      intro c hc
      exact hn c (List.mem_filter.mp hc).1
  · cases h

theorem lookup_write (h : s.write a data = .ok t) (path : List Char) :
    t.lookup path = if path = a.path then some data else s.lookup path := by
  obtain ⟨-, hsame, hothers⟩ := write_eq_ok h
  split
  · next hp => rw [hp, hsame]
  · next hp => exact hothers path hp

theorem lookup_delete (h : s.delete a = .ok t) (path : List Char) :
    t.lookup path = if path = a.path then none else s.lookup path := by
  obtain ⟨-, hsame, hothers⟩ := delete_eq_ok h
  split
  · next hp => rw [hp, hsame]
  · next hp => exact hothers path hp

theorem lookup_erase (h : s.erase space = .ok t) (path : List Char) :
    t.lookup path = if (spacePath space).isPrefixOf path then none else s.lookup path := by
  simp only [erase] at h
  split at h
  · obtain rfl := Except.ok.inj h
    rw [s.lookup_filter fun p => !(spacePath space).isPrefixOf p]
    cases (spacePath space).isPrefixOf path <;> rfl
  · cases h

theorem exists_write (hs : s.available = true) (hd : data.length ≤ capacity) :
    ∃ t, s.write a data = .ok t := by
  rw [write, if_pos hs, if_neg (Nat.not_lt.mpr hd)]
  exact ⟨_, rfl⟩

theorem exists_delete (hs : s.available = true) : ∃ t, s.delete a = .ok t :=
  ⟨_, if_pos hs⟩

theorem exists_erase (hs : s.available = true) (space : String) : ∃ t, s.erase space = .ok t :=
  ⟨_, if_pos hs⟩

end Store

def Access.touches (a : Address) : Access → Bool
  | .read _ => false
  | .write b _ => b = a
  | .delete b => b = a
  | .erase space => space = a.space

def Access.writes (a : Address) : Access → Bool
  | .write b _ => b = a
  | _ => false

namespace Medium

variable {m m' m'' : Medium} {a b : Address} {data : Bytes} {access : Access}
  {change : Store → Except StorageError Store}

theorem attempt_cases (m : Medium) (access : Access)
    (change : Store → Except StorageError Store) :
    (∃ store, m.refuses access = none ∧ change m.store = .ok store ∧ m.attempt access change =
      (.ok (), { m with store, attempts := m.attempts ++ [⟨access, none⟩] })) ∨
    ∃ e, (m.refuses access = some e ∨ change m.store = .error e) ∧ m.attempt access change =
      (.error e, { m with attempts := m.attempts ++ [⟨access, some e⟩] }) := by
  unfold attempt
  cases hr : m.refuses access with
  | some e => exact .inr ⟨e, .inl rfl, rfl⟩
  | none =>
    cases hc : change m.store with
    | error e => exact .inr ⟨e, .inr rfl, by simp⟩
    | ok store => exact .inl ⟨store, rfl, rfl, by simp⟩

theorem lookup_erase (m : Medium) (space : String) (path : List Char) :
    (m.erase space).2.store.lookup path = m.store.lookup path ∨
      (m.erase space).2.store.lookup path = none := by
  rw [erase]
  rcases attempt_cases m (.erase space) (·.erase space) with ⟨store, -, hs, h⟩ | ⟨e, -, h⟩ <;>
    rw [h]
  · rw [Store.lookup_erase hs]
    split <;> simp
  · exact .inl rfl

theorem lookup_delete (m : Medium) (a : Address) :
    (m.delete a).2.store.lookup a.path = m.store.lookup a.path ∨
      (m.delete a).2.store.lookup a.path = none := by
  rw [delete]
  rcases attempt_cases m (.delete a) (·.delete a) with ⟨store, -, hs, h⟩ | ⟨e, -, h⟩ <;> rw [h]
  · exact .inr (Store.delete_eq_ok hs).2.1
  · exact .inl rfl

theorem lookup_of_read (h : m.read a = .ok data) : m.store.lookup a.path = some data := by
  unfold read at h
  split at h
  · cases h
  · grind [Store.read]

theorem attempts_attempt (m : Medium) (access : Access)
    (change : Store → Except StorageError Store) : ∃ failure,
      (m.attempt access change).2.attempts = m.attempts ++ [⟨access, failure⟩] := by
  rcases attempt_cases m access change with ⟨store, -, -, h⟩ | ⟨e, -, h⟩
  · exact ⟨none, by rw [h]⟩
  · exact ⟨some e, by rw [h]⟩

theorem attempt_of_ok {store : Store} (hr : m.refuses access = none)
    (hc : change m.store = .ok store) : m.attempt access change =
      (.ok (), { m with store, attempts := m.attempts ++ [⟨access, none⟩] }) := by
  simp [attempt, hr, hc]

theorem attempt_keeps (hc : ∀ s, change m.store = .ok s → s.available = m.store.available) :
    (m.attempt access change).2.refuses = m.refuses ∧
      (m.attempt access change).2.store.available = m.store.available := by
  rcases attempt_cases m access change with ⟨store, -, hs, h⟩ | ⟨e, -, h⟩
  · rw [h]
    exact ⟨rfl, hc store hs⟩
  · rw [h]
    exact ⟨rfl, rfl⟩

theorem write_keeps (m : Medium) (a : Address) (data : Bytes) :
    (m.write a data).2.refuses = m.refuses ∧
      (m.write a data).2.store.available = m.store.available :=
  attempt_keeps fun _ hs => (Store.write_eq_ok hs).1

theorem delete_keeps (m : Medium) (a : Address) :
    (m.delete a).2.refuses = m.refuses ∧ (m.delete a).2.store.available = m.store.available :=
  attempt_keeps fun _ hs => (Store.delete_eq_ok hs).1

theorem erase_keeps (m : Medium) (space : String) :
    (m.erase space).2.refuses = m.refuses ∧
      (m.erase space).2.store.available = m.store.available :=
  attempt_keeps fun _ hs => (Store.erase_eq_ok hs).1

structure Serves (m : Medium) : Prop where
  available : m.store.available = true
  reads : ∀ a, m.refuses (.read a) = none
  erases : ∀ space, m.refuses (.erase space) = none

theorem Serves.read_eq (h : m.Serves) (a : Address) :
    m.read a = match m.store.lookup a.path with
      | none => .error .notFound
      | some data => if Store.capacity < data.length then .error .io else .ok data := by
  rw [read, h.reads]
  exact if_pos h.available

theorem Serves.read_congr (h : m.Serves) (h' : m'.Serves)
    (hl : m'.store.lookup a.path = m.store.lookup a.path) : m'.read a = m.read a := by
  rw [h.read_eq, h'.read_eq, hl]

theorem Serves.of_keeps (h : m.Serves)
    (hk : m'.refuses = m.refuses ∧ m'.store.available = m.store.available) : m'.Serves := by
  refine ⟨hk.2.trans h.available, ?_, ?_⟩
  · intro a
    rw [hk.1, h.reads]
  · intro space
    rw [hk.1, h.erases]

theorem Serves.erase (h : m.Serves) (space : String) :
    (m.erase space).2.Serves ∧
      (∀ a : Address, a.space = space → (m.erase space).2.store.lookup a.path = none) ∧
      ∀ path, m.store.lookup path = none → (m.erase space).2.store.lookup path = none := by
  obtain ⟨store, hs⟩ := Store.exists_erase h.available space
  obtain ⟨ha, hspace, hpath⟩ := Store.erase_eq_ok hs
  rw [Medium.erase, attempt_of_ok (h.erases space) hs]
  exact ⟨h.of_keeps ⟨rfl, ha⟩, hspace, hpath⟩

structure Elsewhere (a : Address) (m m' : Medium) : Prop where
  refuses : m'.refuses = m.refuses
  available : m'.store.available = m.store.available
  lookup : m'.store.lookup a.path = m.store.lookup a.path
  attempts : m'.attempts.filter (fun t => t.access.touches a) =
    m.attempts.filter fun t => t.access.touches a

theorem Elsewhere.refl (a : Address) (m : Medium) : m.Elsewhere a m := ⟨rfl, rfl, rfl, rfl⟩

theorem Elsewhere.trans (h : m.Elsewhere a m') (h' : m'.Elsewhere a m'') : m.Elsewhere a m'' :=
  ⟨h'.refuses.trans h.refuses, h'.available.trans h.available, h'.lookup.trans h.lookup,
    h'.attempts.trans h.attempts⟩

theorem Elsewhere.serves (h : m.Elsewhere a m') (hm : m.Serves) : m'.Serves :=
  hm.of_keeps ⟨h.refuses, h.available⟩

theorem Elsewhere.read_eq (h : m.Elsewhere a m') (hm : m.Serves) : m'.read a = m.read a :=
  hm.read_congr (h.serves hm) h.lookup

theorem lookup_write_of_ne (m : Medium) (data : Bytes) {path : List Char} (h : path ≠ a.path) :
    (m.write a data).2.store.lookup path = m.store.lookup path := by
  rcases attempt_cases m (.write a data) (·.write a data) with ⟨store, -, hs, h'⟩ | ⟨e, -, h'⟩
  · rw [Medium.write, h']
    exact (Store.write_eq_ok hs).2.2 path h
  · rw [Medium.write, h']

theorem elsewhere_attempt (ht : access.touches a = false)
    (hc : ∀ s, change m.store = .ok s →
      s.available = m.store.available ∧ s.lookup a.path = m.store.lookup a.path) :
    m.Elsewhere a (m.attempt access change).2 := by
  rcases attempt_cases m access change with ⟨store, -, hs, h⟩ | ⟨e, -, h⟩
  · obtain ⟨havailable, hlookup⟩ := hc store hs
    rw [h]
    exact ⟨rfl, havailable, hlookup, by simp [ht]⟩
  · rw [h]
    exact ⟨rfl, rfl, rfl, by simp [ht]⟩

theorem elsewhere_write (hb : b.path ≠ a.path) (m : Medium) (data : Bytes) :
    m.Elsewhere a (m.write b data).2 := by
  apply elsewhere_attempt
  · exact decide_eq_false fun h => hb (h ▸ rfl)
  · intro s hs
    obtain ⟨havailable, -, hlookup⟩ := Store.write_eq_ok hs
    exact ⟨havailable, hlookup _ hb.symm⟩

theorem elsewhere_delete (hb : b.path ≠ a.path) (m : Medium) : m.Elsewhere a (m.delete b).2 := by
  apply elsewhere_attempt
  · exact decide_eq_false fun h => hb (h ▸ rfl)
  · intro s hs
    obtain ⟨havailable, -, hlookup⟩ := Store.delete_eq_ok hs
    exact ⟨havailable, hlookup _ hb.symm⟩

def writes (m : Medium) (a : Address) : List Attempt :=
  m.attempts.filter fun t => t.access.writes a

theorem Elsewhere.writes_eq (h : m.Elsewhere a m') : m'.writes a = m.writes a := by
  have hwrites (m : Medium) : m.writes a =
      (m.attempts.filter fun t => t.access.touches a).filter fun t => t.access.writes a := by
    rw [List.filter_filter, writes]
    congr 1
    funext t
    cases t.access <;> simp [Access.writes, Access.touches]
  rw [hwrites m', hwrites m, h.attempts]

theorem writes_attempt (m : Medium) (access : Access) (change : Store → Except StorageError Store)
    (a : Address) : ∃ failure, (m.attempt access change).2.writes a =
      m.writes a ++ if access.writes a then [⟨access, failure⟩] else [] := by
  obtain ⟨failure, h⟩ := m.attempts_attempt access change
  refine ⟨failure, ?_⟩
  simp only [h, writes, List.filter_append, List.filter_cons, List.filter_nil]

theorem writes_write (m : Medium) (a : Address) (data : Bytes) : ∃ failure,
    (m.write a data).2.writes a = m.writes a ++ [⟨.write a data, failure⟩] := by
  obtain ⟨failure, h⟩ := m.writes_attempt (.write a data) (·.write a data) a
  rw [if_pos (show Access.writes a (.write a data) = true from decide_eq_true rfl)] at h
  exact ⟨failure, h⟩

theorem writes_erase (m : Medium) (space : String) (a : Address) :
    (m.erase space).2.writes a = m.writes a := by
  obtain ⟨failure, h⟩ := m.writes_attempt (.erase space) (·.erase space) a
  rwa [if_neg (show ¬Access.writes a (.erase space) = true from Bool.false_ne_true),
    List.append_nil] at h

structure Ready (m : Medium) : Prop where
  available : m.store.available = true
  refuses_eq : ∀ a, m.refuses a = none

theorem Ready.serves (h : m.Ready) : m.Serves :=
  ⟨h.available, fun _ => h.refuses_eq _, fun _ => h.refuses_eq _⟩

theorem Ready.read_congr (h : m.Ready) (h' : m'.Ready)
    (hl : m'.store.lookup a.path = m.store.lookup a.path) : m'.read a = m.read a :=
  h.serves.read_congr h'.serves hl

theorem Ready.of_keeps (h : m.Ready)
    (hk : m'.refuses = m.refuses ∧ m'.store.available = m.store.available) : m'.Ready := by
  refine ⟨hk.2.trans h.available, ?_⟩
  intro access
  rw [hk.1, h.refuses_eq]

theorem Ready.write (h : m.Ready) (a : Address) (data : Bytes) : (m.write a data).2.Ready :=
  h.of_keeps (write_keeps m a data)

theorem Ready.delete (h : m.Ready) (a : Address) : (m.delete a).2.Ready :=
  h.of_keeps (delete_keeps m a)

theorem Serves.write (h : m.Serves) (a : Address) (data : Bytes) : (m.write a data).2.Serves :=
  h.of_keeps (write_keeps m a data)

theorem Serves.delete (h : m.Serves) (a : Address) : (m.delete a).2.Serves :=
  h.of_keeps (delete_keeps m a)

theorem Serves.read_of_write (h : m.Serves) (hd : data.length ≤ Store.capacity)
    (hw : (m.write a data).1.isOk = true) : (m.write a data).2.read a = .ok data := by
  have hl : (m.write a data).2.store.lookup a.path = some data := by
    rcases attempt_cases m (.write a data) (·.write a data) with ⟨store, -, hs, h'⟩ | ⟨e, -, h'⟩
    · rw [Medium.write, h']
      exact (Store.write_eq_ok hs).2.1
    · rw [Medium.write, h'] at hw
      cases hw
  rw [(h.write a data).read_eq, hl]
  exact if_neg (Nat.not_lt.mpr hd)

theorem Serves.read_of_delete (h : m.Serves) (hw : (m.delete a).1.isOk = true) :
    (m.delete a).2.read a = .error .notFound := by
  have hl : (m.delete a).2.store.lookup a.path = none := by
    rcases attempt_cases m (.delete a) (·.delete a) with ⟨store, -, hs, h'⟩ | ⟨e, -, h'⟩
    · rw [Medium.delete, h']
      exact (Store.delete_eq_ok hs).2.1
    · rw [Medium.delete, h'] at hw
      cases hw
  rw [(h.delete a).read_eq, hl]

theorem Serves.isOk_delete (h : m.Serves) (hr : m.refuses (.delete a) = none) :
    (m.delete a).1.isOk = true := by
  obtain ⟨store, hs⟩ := Store.exists_delete (a := a) h.available
  rw [Medium.delete, attempt_of_ok hr hs]
  rfl

theorem Ready.write_eq_ok (h : m.Ready) (hd : data.length ≤ Store.capacity) :
    (m.write a data).1 = .ok () := by
  obtain ⟨store, hs⟩ := Store.exists_write (a := a) h.available hd
  rw [Medium.write, attempt_of_ok (h.refuses_eq _) hs]

theorem Ready.isOk_write (h : m.Ready) (hd : data.length ≤ Store.capacity) :
    (m.write a data).1.isOk = true := by
  rw [h.write_eq_ok hd]
  rfl

theorem Ready.read_write (h : m.Ready) (hd : data.length ≤ Store.capacity) :
    (m.write a data).2.read a = .ok data :=
  h.serves.read_of_write hd (h.isOk_write hd)

theorem Ready.read_write_of_ne (h : m.Ready) (hb : b.path ≠ a.path) (data : Bytes) :
    (m.write a data).2.read b = m.read b :=
  (elsewhere_write hb.symm m data).read_eq h.serves

theorem Ready.read_delete_of_ne (h : m.Ready) (hb : b.path ≠ a.path) :
    (m.delete a).2.read b = m.read b := by
  apply h.read_congr (h.delete a)
  obtain ⟨store, hs⟩ := Store.exists_delete (a := a) h.available
  rw [Medium.delete, attempt_of_ok (h.refuses_eq _) hs]
  exact (Store.delete_eq_ok hs).2.2 _ hb

end Medium

end Espresso
