import Mathlib.Data.List.Induction
import Mathlib.Data.List.Nodup
import Espresso.Proofs.Schedule.Engine

namespace Espresso

namespace ScheduleEntry

structure IsDue (e : ScheduleEntry) (now : LocalTime) : Prop where
  enabled : e.enabled = true
  weekday_lt : now.weekday < 7
  day : e.days.mask.toNat.testBit now.weekday = true
  hour : e.hour.toNat = now.hour
  minute : e.minute.toNat = now.minute

structure Prevails (e : ScheduleEntry) (entries : List ScheduleEntry) : Prop where
  mem : e ∈ entries
  off : ∀ f ∈ entries, f.action = .turnOff → e.action = .turnOff
  highest : ∀ f ∈ entries, f.action = e.action → f.id ≤ e.id

def Yields (e : ScheduleEntry) (now : LocalTime) (entries : List ScheduleEntry) : Prop :=
  ¬e.IsDue now ∨ e.action = .turnOn ∧ ∃ f ∈ entries, f.IsDue now ∧ f.action = .turnOff

variable {e f : ScheduleEntry} {entries entries' : List ScheduleEntry} {now : LocalTime}

theorem hits_iff : e.hits now = true ↔ e.IsDue now := by
  simp only [hits, Days.contains, Bool.and_eq_true, decide_eq_true_eq]
  constructor
  · rintro ⟨⟨⟨enabled, weekday_lt, day⟩, hour⟩, minute⟩
    exact ⟨enabled, weekday_lt, day, hour, minute⟩
  · rintro ⟨enabled, weekday_lt, day, hour, minute⟩
    exact ⟨⟨⟨enabled, weekday_lt, day⟩, hour⟩, minute⟩

theorem mem_filter_hits : e ∈ entries.filter (fun e => e.hits now) ↔ e ∈ entries ∧ e.IsDue now := by
  rw [List.mem_filter, hits_iff]

theorem turnOn_of_ne_turnOff (h : e.action ≠ .turnOff) : e.action = .turnOn := by
  cases ha : e.action with
  | turnOn => rfl
  | turnOff => exact absurd ha h

theorem rank_of_turnOff (h : e.action = .turnOff) : e.rank = 256 + e.id.toNat := by
  rw [rank, if_pos h]

theorem rank_of_turnOn (h : e.action = .turnOn) : e.rank = e.id.toNat := by
  rw [rank, h, if_neg (by decide), Nat.zero_add]

theorem rank_lt_rank (he : e.action = .turnOn) (hf : f.action = .turnOff) : e.rank < f.rank := by
  rw [rank_of_turnOn he, rank_of_turnOff hf]
  exact Nat.lt_of_lt_of_le e.id.toNat_lt (Nat.le_add_right ..)

theorem rank_le_rank_iff (h : f.action = e.action) : f.rank ≤ e.rank ↔ f.id ≤ e.id := by
  rw [rank, rank, h, Nat.add_le_add_iff_left, UInt8.le_iff_toNat_le]

theorem winner_concat (entries : List ScheduleEntry) (e : ScheduleEntry) :
    winner (entries ++ [e]) = match winner entries with
      | none => some e
      | some b => if b.rank ≤ e.rank then some e else some b := by
  rw [winner, List.foldl_append]
  rfl

theorem winner_eq_none : winner entries = none ↔ entries = [] := by
  induction entries using List.reverseRecOn with
  | nil => exact iff_of_true rfl rfl
  | append_singleton entries e ih =>
    apply iff_of_false ?_ (List.concat_ne_nil e entries)
    rw [winner_concat]
    split
    · exact nofun
    · split <;> exact nofun

theorem exists_winner : (∃ e, winner entries = some e) ↔ ∃ f, f ∈ entries := by
  rw [← Option.ne_none_iff_exists', ne_eq, winner_eq_none]
  exact ⟨List.exists_mem_of_ne_nil entries, fun ⟨f, hf⟩ => List.ne_nil_of_mem hf⟩

theorem rank_le_winner (h : winner entries = some e) : ∀ f ∈ entries, f.rank ≤ e.rank := by
  induction entries using List.reverseRecOn generalizing e with
  | nil => nofun
  | append_singleton entries a ih =>
    intro f hf
    rw [winner_concat] at h
    rw [List.mem_append, List.mem_singleton] at hf
    cases hb : winner entries with
    | none =>
      rw [hb] at h
      obtain rfl := Option.some.inj h
      rw [winner_eq_none.mp hb] at hf
      rcases hf with hf | rfl
      · cases hf
      · exact Nat.le_refl _
    | some b =>
      have hle := ih hb
      simp only [hb] at h
      split at h
      · next hba =>
        obtain rfl := Option.some.inj h
        rcases hf with hf | rfl
        · exact Nat.le_trans (hle f hf) hba
        · exact Nat.le_refl _
      · next hba =>
        obtain rfl := Option.some.inj h
        rcases hf with hf | rfl
        · exact hle f hf
        · exact Nat.le_of_lt (Nat.not_le.mp hba)

theorem prevails_winner (h : winner entries = some e) : e.Prevails entries where
  mem := mem_of_winner h
  off f hf hoff := by
    by_contra hne
    have hlt := rank_lt_rank (turnOn_of_ne_turnOff hne) hoff
    exact Nat.not_lt.mpr (rank_le_winner h f hf) hlt
  highest f hf ha := (rank_le_rank_iff ha).mp (rank_le_winner h f hf)

theorem Prevails.congr (h : e.Prevails entries) (hm : ∀ f, f ∈ entries ↔ f ∈ entries') :
    e.Prevails entries' where
  mem := (hm e).mp h.mem
  off f hf := h.off f ((hm f).mpr hf)
  highest f hf := h.highest f ((hm f).mpr hf)

theorem Prevails.unique (he : e.Prevails entries) (hf : f.Prevails entries)
    (hd : (entries.map ScheduleEntry.id).Nodup) : e = f := by
  have ha : e.action = f.action := by
    by_cases h : e.action = .turnOff
    · exact h.trans (hf.off e he.mem h).symm
    · have hn : f.action ≠ .turnOff := fun hoff => h (he.off f hf.mem hoff)
      exact (turnOn_of_ne_turnOff h).trans (turnOn_of_ne_turnOff hn).symm
  have hid : e.id = f.id :=
    UInt8.le_antisymm (hf.highest e he.mem ha) (he.highest f hf.mem ha.symm)
  exact List.inj_on_of_nodup_map hd he.mem hf.mem hid

theorem winner_perm (hd : (entries.map ScheduleEntry.id).Nodup) (hp : entries.Perm entries') :
    winner entries' = winner entries := by
  cases h : winner entries with
  | none =>
    rw [winner_eq_none] at h ⊢
    exact (h ▸ hp).nil_eq.symm
  | some e =>
    obtain ⟨f, hf⟩ := exists_winner.mpr ⟨e, hp.mem_iff.mp (mem_of_winner h)⟩
    have hfp : f.Prevails entries := (prevails_winner hf).congr fun _ => hp.mem_iff.symm
    rw [hf, (prevails_winner h).unique hfp hd]

theorem winner_of_filter_turnOff
    (h : winner (entries.filter fun e => e.action = .turnOff) = some e) :
    winner entries = some e := by
  induction entries using List.reverseRecOn generalizing e with
  | nil => cases h
  | append_singleton entries a ih =>
    rw [List.filter_append] at h
    rw [winner_concat]
    by_cases ha : a.action = .turnOff
    · have hfilter : [a].filter (fun e => e.action = .turnOff) = [a] := by simp [ha]
      rw [hfilter, winner_concat] at h
      cases hw : winner (entries.filter fun e => e.action = .turnOff) with
      | some b =>
        rw [hw] at h
        rwa [ih hw]
      | none =>
        rw [hw] at h
        cases hb : winner entries with
        | none => exact h
        | some b =>
          -- None of the entries before turns the machine off.
          have hon : b.action = .turnOn := by
            apply turnOn_of_ne_turnOff
            intro hoff
            exact List.not_mem_nil (winner_eq_none.mp hw ▸
              List.mem_filter.mpr ⟨mem_of_winner hb, decide_eq_true hoff⟩)
          exact (if_pos (Nat.le_of_lt (rank_lt_rank hon ha))).trans h
    · have hfilter : [a].filter (fun e => e.action = .turnOff) = [] := by simp [ha]
      rw [hfilter, List.append_nil] at h
      have hoff : e.action = .turnOff := of_decide_eq_true (List.mem_filter.mp (mem_of_winner h)).2
      rw [ih h]
      exact if_neg (Nat.not_le.mpr (rank_lt_rank (turnOn_of_ne_turnOff ha) hoff))

theorem winner_congr_of_turnOff (h : ∃ f ∈ entries, f.action = .turnOff)
    (hf : entries'.filter (fun e => e.action = .turnOff) =
      entries.filter fun e => e.action = .turnOff) : winner entries' = winner entries := by
  obtain ⟨f, hmem, hoff⟩ := h
  obtain ⟨e, he⟩ := exists_winner.mpr
    ⟨f, List.mem_filter (p := fun e => e.action = .turnOff).mpr ⟨hmem, decide_eq_true hoff⟩⟩
  rw [winner_of_filter_turnOff he, winner_of_filter_turnOff (hf ▸ he)]

theorem winner_insert {pre extra post : List ScheduleEntry}
    (h : ∀ e ∈ extra, e.Yields now (pre ++ post)) :
    winner ((pre ++ extra ++ post).filter fun e => e.hits now) =
      winner ((pre ++ post).filter fun e => e.hits now) := by
  by_cases hoff : ∃ f ∈ pre ++ post, f.IsDue now ∧ f.action = .turnOff
  · apply winner_congr_of_turnOff
    · obtain ⟨f, hf, hdue, hturn⟩ := hoff
      exact ⟨f, mem_filter_hits.mpr ⟨hf, hdue⟩, hturn⟩
    · have hnone : (extra.filter fun e => e.hits now).filter (fun e => e.action = .turnOff) = [] := by
        rw [List.filter_eq_nil_iff]
        intro e he hturn
        obtain ⟨hmem, hdue⟩ := mem_filter_hits.mp he
        rcases h e hmem with hn | ⟨hon, -⟩
        · exact hn hdue
        · rw [hon] at hturn
          cases hturn
      simp only [List.filter_append, hnone, List.append_nil]
  · have hnone : (extra.filter fun e => e.hits now) = [] := by
      rw [List.filter_eq_nil_iff]
      intro e he hhits
      exact (h e he).elim (fun hn => hn (hits_iff.mp hhits)) fun hy => hoff hy.2
    simp only [List.filter_append, hnone, List.append_nil]

end ScheduleEntry

namespace ScheduleEngine

open ScheduleEntry

variable {g : ScheduleEngine} {t u : ScheduleTable} {now : Option LocalTime}

theorem evaluate_congr (h : ∀ time ∈ now,
    winner (u.entries.filter fun e => e.hits time) =
      winner (t.entries.filter fun e => e.hits time)) : g.evaluate u now = g.evaluate t now := by
  cases now with
  | none => rfl
  | some time => rw [evaluate, evaluate, h time rfl]

theorem fst_evaluate_eq_some {e : ScheduleEntry} : (g.evaluate t now).1 = some e ↔
    ∃ time, now = some time ∧ g.lastMinute ≠ some time.minuteOfDay ∧
      winner (t.entries.filter fun e => e.hits time) = some e := by
  cases now with
  | none => exact ⟨nofun, fun ⟨_, h, _⟩ => nomatch h⟩
  | some time =>
    rw [evaluate]
    constructor
    · intro h
      split at h
      · cases h
      · next hne => exact ⟨time, rfl, hne, h⟩
    · rintro ⟨_, ⟨⟩, hne, h⟩
      rwa [if_neg hne]

theorem isSome_fst_evaluate : (g.evaluate t now).1.isSome = true ↔
    ∃ time, now = some time ∧ g.lastMinute ≠ some time.minuteOfDay ∧
      ∃ e ∈ t.entries, e.IsDue time := by
  have hdue (time : LocalTime) : (∃ e, winner (t.entries.filter fun e => e.hits time) = some e) ↔
      ∃ e ∈ t.entries, e.IsDue time := by
    simp only [exists_winner, mem_filter_hits]
  simp only [Option.isSome_iff_exists, fst_evaluate_eq_some]
  constructor
  · rintro ⟨e, time, hnow, hne, he⟩
    exact ⟨time, hnow, hne, (hdue time).mp ⟨e, he⟩⟩
  · rintro ⟨time, hnow, hne, hex⟩
    obtain ⟨e, he⟩ := (hdue time).mpr hex
    exact ⟨e, time, hnow, hne, he⟩

/-- The engine hands an entry on just if the clock is set, the minute was not looked at before and an
entry of the table is due. It is one that is due, turns the machine off if any of them does, and has
the highest id of those with its action. Where ids are not used twice the order of entries does not
matter, and wherever entries that are not due, or that turn the machine on beside one that turns it
off, come in or go, nothing changes. -/
theorem evaluate_picks_safest (g : ScheduleEngine) (t : ScheduleTable) (now : Option LocalTime) :
    ((g.evaluate t now).1.isSome = true ↔ ∃ time, now = some time ∧
      g.lastMinute ≠ some time.minuteOfDay ∧ ∃ e ∈ t.entries, e.IsDue time) ∧
    (∀ e, (g.evaluate t now).1 = some e → ∃ time, now = some time ∧ e ∈ t.entries ∧ e.IsDue time ∧
      (∀ f ∈ t.entries, f.IsDue time → f.action = .turnOff → e.action = .turnOff) ∧
      ∀ f ∈ t.entries, f.IsDue time → f.action = e.action → f.id ≤ e.id) ∧
    (∀ entries entries' : List ScheduleEntry, (entries.map ScheduleEntry.id).Nodup →
      entries.Perm entries' → winner entries' = winner entries) ∧
    (∀ pre extra post : List ScheduleEntry, t.entries = pre ++ post →
      (∀ e ∈ extra, ∀ time ∈ now, e.Yields time t.entries) →
      g.evaluate { t with entries := pre ++ extra ++ post } now = g.evaluate t now) ∧
    (∀ (u : ScheduleTable) (extra : List ScheduleEntry),
      (u.entries.map ScheduleEntry.id).Nodup → u.entries.Perm (t.entries ++ extra) →
      (∀ e ∈ extra, ∀ time ∈ now, e.Yields time t.entries) →
      g.evaluate u now = g.evaluate t now) := by
  refine ⟨isSome_fst_evaluate, ?_, fun _ _ => winner_perm, ?_, ?_⟩
  · intro e h
    obtain ⟨time, hnow, -, hw⟩ := fst_evaluate_eq_some.mp h
    obtain ⟨hmem, hoff, hhighest⟩ := prevails_winner hw
    obtain ⟨hmem, hdue⟩ := mem_filter_hits.mp hmem
    exact ⟨time, hnow, hmem, hdue,
      fun f hf hd => hoff f (mem_filter_hits.mpr ⟨hf, hd⟩),
      fun f hf hd => hhighest f (mem_filter_hits.mpr ⟨hf, hd⟩)⟩
  · intro pre extra post ht hy
    apply evaluate_congr
    intro time htime
    rw [ht]
    exact winner_insert fun e he => ht ▸ hy e he time htime
  · intro u extra hd hp hy
    apply evaluate_congr
    intro time htime
    have hfilter := hp.filter fun e => e.hits time
    have hdistinct : ((u.entries.filter fun e => e.hits time).map ScheduleEntry.id).Nodup :=
      hd.sublist (List.filter_sublist.map _)
    have hinsert : winner ((t.entries ++ extra ++ []).filter fun e => e.hits time) =
        winner ((t.entries ++ []).filter fun e => e.hits time) := by
      apply winner_insert
      intro e he
      simpa using hy e he time htime
    rw [← winner_perm hdistinct hfilter]
    simpa using hinsert

theorem evaluate_picks_safest_of_four :
    let entry (id : UInt8) (action : ScheduleAction) : ScheduleEntry :=
      { ScheduleEntry.daily 7 30 action with id }
    let t : ScheduleTable := ⟨[entry 3 .turnOn, entry 1 .turnOff], false, 60, 9⟩
    let extra := [{ entry 8 .turnOff with enabled := false }, entry 9 .turnOn]
    let u : ScheduleTable := ⟨extra ++ t.entries, false, 60, 9⟩
    let now := LocalTime.ofUnix 1704094200 0
    (u.entries.map ScheduleEntry.id).Nodup ∧ u.entries.Perm (t.entries ++ extra) ∧
      (∀ e ∈ extra, ∀ time ∈ now, e.Yields time t.entries) ∧
      (start 0).evaluate u now = (start 0).evaluate t now ∧
      ((start 0).evaluate u now).1 = some (entry 1 .turnOff) := by
  intro entry t extra u now
  have hd : (u.entries.map ScheduleEntry.id).Nodup := by decide
  have hp : u.entries.Perm (t.entries ++ extra) := List.perm_append_comm
  have hy : ∀ e ∈ extra, ∀ time ∈ now, e.Yields time t.entries := by
    have hdue : ∀ time ∈ now, (entry 1 .turnOff).IsDue time := by
      intro time htime
      obtain rfl := Option.some.inj htime
      exact hits_iff.mp (by decide +kernel)
    intro e he time htime
    simp only [extra, List.mem_cons, List.not_mem_nil, or_false] at he
    rcases he with rfl | rfl
    · exact .inl fun h => nomatch h.enabled
    · exact .inr ⟨rfl, entry 1 .turnOff, by simp [t], hdue time htime, rfl⟩
  obtain ⟨-, -, -, -, h⟩ := evaluate_picks_safest (start 0) t now
  exact ⟨hd, hp, hy, h u extra hd hp hy, by decide +kernel⟩

end ScheduleEngine

end Espresso
