import Espresso.Notice.Register
import Espresso.Proofs.Keys

/-!
A bus tells its sinks apart by handles of eight bits. It does what the register does as long as no
handle outlives 256 later subscriptions, and that is as far as it goes.
-/

namespace Espresso

variable {σ ε : Type}

namespace Bus

variable {b b' : Bus σ} {sink : σ} {handle : UInt8}

theorem subscribe_eq_some {p : UInt8 × Bus σ} (h : b.subscribe sink = some p) :
    b.size < capacity ∧ p = (b.next, ⟨b.sinks ++ [(b.next, sink)], b.next + 1⟩) := by
  obtain ⟨hsize, hp⟩ := (Option.ite_none_right_eq_some ..).mp h
  exact ⟨hsize, (Option.some.inj hp).symm⟩

theorem unsubscribe_eq_some (h : b.unsubscribe handle = some b') :
    b' = { b with sinks := b.sinks.eraseP fun p => p.1 = handle } := by
  obtain ⟨-, hb⟩ := (Option.ite_none_right_eq_some ..).mp h
  exact (Option.some.inj hb).symm

end Bus

theorem ofNat_eq_ofNat_iff {m n next : Nat} (hm : m < next ∧ next ≤ m + 256)
    (hn : n < next ∧ next ≤ n + 256) : UInt8.ofNat m = UInt8.ofNat n ↔ m = n := by
  rw [← UInt8.toNat_inj, UInt8.toNat_ofNat', UInt8.toNat_ofNat']
  omega

namespace Subscriptions

variable {d : Subscriptions σ} {r : Register σ}

structure Kept (d : Subscriptions σ) : Prop where
  size_le : d.bus.size ≤ Bus.capacity
  sublist : d.bus.sinks.Sublist d.given

theorem Kept.serve (h : d.Kept) (q : BusRequest σ ε) : (d.serve q).2.Kept := by
  cases q with
  | subscribe sink =>
    rw [Subscriptions.serve]
    split
    · next handle bus hs =>
      obtain ⟨hsize, hp⟩ := Bus.subscribe_eq_some hs
      cases hp
      constructor
      · simp only [Bus.size, List.length_append, List.length_singleton] at hsize ⊢
        omega
      · exact h.sublist.append (List.Sublist.refl _)
    · exact h
  | unsubscribe number =>
    rw [Subscriptions.serve]
    split
    · next bus hu =>
      obtain ⟨p, -, hb⟩ := Option.bind_eq_some_iff.mp hu
      obtain rfl := Bus.unsubscribe_eq_some hb
      constructor
      · exact Nat.le_trans List.length_eraseP_le h.size_le
      · exact List.eraseP_sublist.trans h.sublist
    · exact h
  | publish e => exact h

/-- The live sinks are those of the register, each under the last eight bits of its number, and none
of them is older than 256 subscriptions. -/
structure Matches (d : Subscriptions σ) (r : Register σ) : Prop where
  next : d.bus.next = UInt8.ofNat r.next
  given : d.given.map Prod.fst = (List.range r.next).map UInt8.ofNat
  sinks : d.bus.sinks = r.live.map fun p => (UInt8.ofNat p.1, p.2)
  increasing : r.live.Pairwise fun p q => p.1 < q.1
  recent : ∀ p ∈ r.live, p.1 < r.next ∧ r.next ≤ p.1 + 256

theorem matches_start : (start : Subscriptions σ).Matches .start :=
  ⟨rfl, rfl, rfl, .nil, nofun⟩

theorem Matches.subscribe (h : d.Matches r) (sink : σ)
    (hr : r.Timely (.subscribe sink : BusRequest σ ε)) :
    (d.serve (.subscribe sink : BusRequest σ ε)).1 = (r.serve (.subscribe sink)).1 ∧
      (d.serve (.subscribe sink : BusRequest σ ε)).2.Matches
        (r.serve (.subscribe sink : BusRequest σ ε)).2 := by
  have hsize : d.bus.size = r.live.length := by rw [Bus.size, h.sinks, List.length_map]
  rw [Subscriptions.serve, Register.serve, Bus.subscribe, hsize]
  by_cases hroom : r.live.length < 4
  · have hnext : d.bus.next + 1 = UInt8.ofNat (r.next + 1) := by
      rw [h.next, UInt8.ofNat_add]
      rfl
    rw [if_pos hroom, if_pos (show r.live.length < Bus.capacity from hroom)]
    refine ⟨rfl, hnext, ?_, ?_, ?_, ?_⟩
    · simp [h.given, h.next, List.range_succ]
    · simp [h.sinks, h.next]
    · rw [List.pairwise_append]
      refine ⟨h.increasing, List.pairwise_singleton .., ?_⟩
      intro p hp q hq
      obtain rfl := List.mem_singleton.mp hq
      exact (h.recent p hp).1
    · intro p hp
      rcases List.mem_append.mp hp with hp | hp
      · have hlt := hr p hp
        have := (h.recent p hp).1
        dsimp only
        omega
      · obtain rfl := List.mem_singleton.mp hp
        dsimp only
        omega
  · rw [if_neg hroom, if_neg (show ¬r.live.length < Bus.capacity from hroom)]
    exact ⟨rfl, h⟩

theorem Matches.same_handle (h : d.Matches r) {number : Nat}
    (hn : number < r.next ∧ r.next ≤ number + 256) {p : Nat × σ} (hp : p ∈ r.live) :
    UInt8.ofNat p.1 = UInt8.ofNat number ↔ p.1 = number :=
  ofNat_eq_ofNat_iff (h.recent p hp) hn

theorem Matches.distinct (h : d.Matches r) : d.bus.sinks.Pairwise fun p q => p.1 ≠ q.1 := by
  rw [h.sinks, List.pairwise_map]
  refine h.increasing.imp_of_mem ?_
  intro p q hp hq hlt heq
  have := (h.same_handle (h.recent q hq) hp).mp heq
  omega

theorem Matches.given_handle (h : d.Matches r) {number : Nat} (hn : number < r.next) :
    ∃ p, d.given[number]? = some p ∧ p.1 = UInt8.ofNat number := by
  have hmap : (d.given.map Prod.fst)[number]? = some (UInt8.ofNat number) := by
    simp [h.given, hn]
  rw [List.getElem?_map] at hmap
  exact Option.map_eq_some_iff.mp hmap

theorem Matches.unsubscribe_given (h : d.Matches r) {number : Nat} (hr : r.next ≤ number + 256) :
    (d.given[number]?.bind fun p => d.bus.unsubscribe p.1) =
      if r.live.any fun p => p.1 = number then
        some { d.bus with
          sinks := (r.live.filter fun p => p.1 ≠ number).map fun p => (UInt8.ofNat p.1, p.2) }
      else none := by
  by_cases hn : number < r.next
  · obtain ⟨p, hp, hhandle⟩ := h.given_handle hn
    have hsame : ∀ q ∈ r.live, UInt8.ofNat q.1 = UInt8.ofNat number ↔ q.1 = number :=
      fun q hq => h.same_handle ⟨hn, hr⟩ hq
    have hany : (d.bus.sinks.any fun q => q.1 = UInt8.ofNat number) =
        r.live.any fun q => q.1 = number := by
      rw [h.sinks, List.any_map, Bool.eq_iff_iff, List.any_eq_true, List.any_eq_true]
      refine exists_congr fun q => and_congr_right fun hq => ?_
      simpa using hsame q hq
    have hfilter : (d.bus.sinks.filter fun q => q.1 ≠ UInt8.ofNat number) =
        (r.live.filter fun q => q.1 ≠ number).map fun q => (UInt8.ofNat q.1, q.2) := by
      rw [h.sinks, List.filter_map]
      congr 1
      apply List.filter_congr
      intro q hq
      exact decide_eq_decide.mpr (not_congr (hsame q hq))
    rw [hp, Option.bind_some, hhandle, Bus.unsubscribe, eraseP_eq_filter h.distinct, hany, hfilter]
  · have hlength : d.given.length = r.next := by simpa using congrArg List.length h.given
    have hnone : d.given[number]? = none := List.getElem?_eq_none_iff.mpr (by omega)
    have hany : ¬r.live.any (fun p => p.1 = number) = true := by
      rw [List.any_eq_true]
      rintro ⟨p, hp, he⟩
      have := (h.recent p hp).1
      have := of_decide_eq_true he
      omega
    rw [hnone, if_neg hany]
    rfl

theorem Matches.unsubscribe (h : d.Matches r) {number : Nat} (hr : r.next ≤ number + 256) :
    (d.serve (.unsubscribe number : BusRequest σ ε)).1 = (r.serve (.unsubscribe number)).1 ∧
      (d.serve (.unsubscribe number : BusRequest σ ε)).2.Matches
        (r.serve (.unsubscribe number : BusRequest σ ε)).2 := by
  have hrecent : ∀ p ∈ r.live.filter (fun p => p.1 ≠ number), p.1 < r.next ∧ r.next ≤ p.1 + 256 :=
    fun p hp => h.recent p (List.mem_filter.mp hp).1
  rw [Subscriptions.serve, Register.serve, h.unsubscribe_given hr]
  cases hany : r.live.any fun p => p.1 = number with
  | true => exact ⟨rfl, h.next, h.given, rfl, h.increasing.filter _, hrecent⟩
  | false =>
    have hall : (r.live.filter fun p => p.1 ≠ number) = r.live := by
      rw [List.filter_eq_self]
      simpa using hany
    refine ⟨rfl, h.next, h.given, ?_, h.increasing.filter _, hrecent⟩
    rw [hall]
    exact h.sinks

theorem kept_serveAll (requests : List (BusRequest σ ε)) : (start.serveAll requests).Kept := by
  refine List.foldlRecOn (motive := Kept) requests _ ⟨Nat.zero_le _, List.Sublist.refl _⟩ ?_
  intro d hd q _
  exact hd.serve q

theorem Matches.serve (h : d.Matches r) {q : BusRequest σ ε} (hr : r.Timely q) :
    (d.serve q).1 = (r.serve q).1 ∧ (d.serve q).2.Matches (r.serve q).2 := by
  cases q with
  | subscribe sink => exact h.subscribe sink hr
  | unsubscribe number => exact h.unsubscribe hr
  | publish e =>
    refine ⟨?_, h⟩
    simp [Subscriptions.serve, Register.serve, Bus.deliver, h.sinks]

theorem Matches.serveAll (h : d.Matches r) {requests : List (BusRequest σ ε)}
    (hr : r.TimelyAll requests) :
    d.replies requests = r.replies requests ∧
      (d.serveAll requests).Matches (r.serveAll requests) := by
  induction requests generalizing d r with
  | nil => exact ⟨rfl, h⟩
  | cons q requests ih =>
    obtain ⟨hreply, hmatch⟩ := h.serve hr.1
    obtain ⟨hreplies, hall⟩ := ih hmatch hr.2
    refine ⟨?_, hall⟩
    rw [replies, Register.replies, hreply, hreplies]

/-- Whatever is asked of a bus, four sinks at most are live, in the order in which they were taken; a
full bus takes no sink and stays as it is, and an event reaches the live sinks once each. While no
handle outlives 256 later subscriptions, the bus answers as the register does: live sinks have
handles of their own, and a handle that is handed back removes the sink that it was given for if that
is live, and nothing else. -/
theorem handles_identify_sinks (requests : List (BusRequest σ ε)) :
    let d := start.serveAll requests
    let r := Register.start.serveAll requests
    d.bus.size ≤ 4 ∧ d.bus.sinks.Sublist d.given ∧
    (∀ sink, d.bus.size = 4 →
      d.serve (.subscribe sink : BusRequest σ ε) = (.granted false, d)) ∧
    (∀ e : ε, d.serve (.publish e) = (.told (d.bus.sinks.map fun p => (p.2, e)), d)) ∧
    (Register.start.TimelyAll requests →
      start.replies requests = Register.start.replies requests ∧
      (d.bus.sinks.map Prod.fst).Nodup ∧
      d.bus.sinks.map Prod.snd = r.live.map Prod.snd ∧
      r.live.Pairwise fun p q => p.1 < q.1) := by
  intro d r
  have hkept : d.Kept := kept_serveAll requests
  refine ⟨hkept.size_le, hkept.sublist, ?_, ?_, ?_⟩
  · intro sink hfull
    have hroom : ¬d.bus.size < Bus.capacity := Nat.not_lt.mpr (Nat.le_of_eq hfull.symm)
    rw [serve, Bus.subscribe, if_neg hroom]
  · intro e
    simp [serve, Bus.deliver]
  · intro htimely
    obtain ⟨hreplies, hmatch⟩ := matches_start.serveAll htimely
    refine ⟨hreplies, List.pairwise_map.mpr hmatch.distinct, ?_, hmatch.increasing⟩
    rw [hmatch.sinks, List.map_map]
    rfl

set_option maxRecDepth 4000 in
theorem handles_identify_sinks_after_300 :
    let requests : List (BusRequest Nat Unit) :=
      (List.range 300).flatMap (fun i => [.subscribe i, .unsubscribe i]) ++
        [.subscribe 300, .subscribe 301, .unsubscribe 300]
    let d := start.serveAll requests
    Register.start.TimelyAll requests ∧ d.bus.sinks.map Prod.snd = [301] ∧
      d.bus.sinks = [(45, 301)] := by
  refine ⟨by decide +kernel, ?_, by decide +kernel⟩
  obtain ⟨-, -, -, -, hsame⟩ := handles_identify_sinks (ε := Unit) ((List.range 300).flatMap
    (fun i => [.subscribe i, .unsubscribe i]) ++
      [.subscribe 300, .subscribe 301, .unsubscribe 300])
  obtain ⟨-, -, hsinks, -⟩ := hsame (by decide +kernel)
  exact hsinks.trans (by decide +kernel)

/-- One sink stays while 255 others come and go. The next one gets the handle that is still in use,
and to hand that back removes the old sink. -/
theorem handle_names_two_sinks :
    let requests : List (BusRequest Nat Unit) := .subscribe 7 ::
      (List.range 255).flatMap (fun i => [.subscribe 0, .unsubscribe (i + 1)]) ++ [.subscribe 8]
    let d := start.serveAll requests
    d.given[256]? = some (0, 8) ∧ d.bus.sinks = [(0, 7), (0, 8)] ∧
      (d.serve (.unsubscribe 256 : BusRequest Nat Unit)).2.bus.sinks = [(0, 8)] := by
  decide +kernel

end Subscriptions

end Espresso
