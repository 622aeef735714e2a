import LinkExtender.Handshake.Link

/-!
# How a recovery ends

A recovery leads to both sides holding each other unless, at some tick, the
ticking side does not hold the other while the other holds it.  From there on
its HELLOs are taken for signs of life and never answered.
-/

namespace LinkExtender

namespace Handshake

open EventMachine

namespace Schedule

@[simp] theorem advance_due_self (r : Schedule) (x : Side) :
    (r.advance (.tick x)).due x = r.due x + kMaintenanceInterval := by
  simp [advance]

@[simp] theorem advance_due_other (r : Schedule) (x : Side) :
    (r.advance (.tick x)).due x.other = r.due x.other := by
  simp [advance]

@[simp] theorem advance_ticks_self (r : Schedule) (x : Side) :
    (r.advance (.tick x)).ticks x = r.ticks x + 1 := by
  simp [advance]

@[simp] theorem advance_ticks_other (r : Schedule) (x : Side) :
    (r.advance (.tick x)).ticks x.other = r.ticks x.other := by
  simp [advance]

end Schedule

namespace Link

/-! ## One step of the link -/

theorem tick_of_released {s : Link} {x : Side} (h : s.seen x = none) :
    s.tick x = s.post x .hello := by
  simp [tick, h]

theorem tick_of_fresh {s : Link} {x : Side} {l : TimePoint} (h : s.seen x = some l)
    (hfresh : s.now - l ≤ kKeepaliveTimeout) : s.tick x = s.post x .keepalive := by
  simp [tick, h, not_lt.mpr hfresh]

theorem tick_of_late {s : Link} {x : Side} {l : TimePoint} (h : s.seen x = some l)
    (hlate : kKeepaliveTimeout < s.now - l) : s.tick x = s.hold x none := by
  simp [tick, h, hlate]

theorem receive_of_held {s : Link} {x : Side} {l : TimePoint} (h : s.seen x = some l)
    {c : Control} (hc : c ≠ .bye) : s.receive x c = s.hold x (some s.now) := by
  cases c with
  | bye => exact absurd rfl hc
  | _ => simp [receive, h]

theorem receive_hello_of_released {s : Link} {x : Side} (h : s.seen x = none) :
    s.receive x .hello = (s.hold x (some s.now)).post x .hello := by
  simp [receive, h]

theorem receive_keepalive_of_released {s : Link} {x : Side} (h : s.seen x = none) :
    s.receive x .keepalive = s := by
  simp [receive, h]

theorem step_deliver_cases (s : Link) (i : ℕ) :
    s.step (.deliver i) = s ∨ ∃ p rest, p ∈ s.inFlight ∧
      (∀ q ∈ rest, q ∈ s.inFlight) ∧ (∀ q ∈ s.inFlight, q ≠ p → q ∈ rest) ∧
      s.step (.deliver i) = { s with inFlight := rest }.receive p.1.other p.2 := by
  cases hget : s.inFlight[i]? with
  | none => exact Or.inl (by simp [step, hget])
  | some p =>
      refine Or.inr ⟨p, s.inFlight.eraseIdx i, List.mem_of_getElem? hget,
        fun q hq ↦ List.mem_of_mem_eraseIdx hq, ?_, by simp [step, hget]⟩
      intro q hq hne
      obtain ⟨j, hj⟩ := List.getElem?_of_mem hq
      rw [List.mem_eraseIdx_iff_getElem?]
      refine ⟨j, ?_, hj⟩
      rintro rfl
      apply hne
      exact Option.some.inj (hj.symm.trans hget)

theorem mem_inFlight_duplicate (s : Link) (i : ℕ) (p : Side × Control) :
    p ∈ (s.step (.duplicate i)).inFlight ↔ p ∈ s.inFlight := by
  simp only [step, List.mem_append, Option.mem_toList]
  constructor
  · rintro (h | h)
    · exact h
    · exact List.mem_of_getElem? h
  · exact Or.inl

@[simp] theorem now_receive (s : Link) (x : Side) (c : Control) :
    (s.receive x c).now = s.now := by
  cases c <;> cases h : s.seen x <;> simp [receive, h]

@[simp] theorem now_tick (s : Link) (x : Side) : (s.tick x).now = s.now := by
  unfold tick
  split
  · split <;> rfl
  · rfl

/-! ## Time -/

theorem OnTime.step {t₀ : TimePoint} {s : Link} {r : Schedule} (h : OnTime t₀ s r)
    {e : HandshakeEvent} (hallows : r.Allows s.now (s.inFlight = []) e) :
    OnTime t₀ (s.step e) (r.advance e) := by
  intro y
  obtain ⟨hpast, hsoon, hlower, hupper⟩ := h y
  cases e with
  | tick x =>
      have hnow : s.now = r.due x := hallows.1
      have hself := h x
      simp only [Link.step, now_tick]
      rcases Side.eq_or_eq_other x y with rfl | rfl
      · simp only [Schedule.advance_due_self, Schedule.advance_ticks_self, TimePoint,
          kMaintenanceInterval, seconds] at *
        omega
      · simp only [Schedule.advance_due_other, Schedule.advance_ticks_other]
        exact ⟨hpast, hsoon, hlower, hupper⟩
  | deliver i =>
      have hnow : (s.step (.deliver i)).now = s.now := by
        rcases step_deliver_cases s i with heq | ⟨p, rest, -, -, -, heq⟩ <;> simp [heq]
      rw [hnow]
      exact ⟨hpast, hsoon, hlower, hupper⟩
  | duplicate i => exact ⟨hpast, hsoon, hlower, hupper⟩
  | elapse d =>
      have hwait := hallows y
      have hd : (0 : ℤ) ≤ d := Int.natCast_nonneg d
      refine ⟨hwait, ?_, hlower, hupper⟩
      change r.due y ≤ s.now + d + kMaintenanceInterval
      dsimp only [TimePoint] at *
      omega
  | lose i => exact hallows.elim
  | restart x graceful => exact hallows.elim

/-- While the other side has not ticked, a side has ticked at most twice. -/
theorem OnTime.ticks_le {t₀ : TimePoint} {s : Link} {r : Schedule} (h : OnTime t₀ s r)
    {x : Side} (hother : r.ticks x.other = 0) : r.ticks x ≤ 2 := by
  have hx := h x
  have hy := h x.other
  rw [hother] at hy
  simp only [TimePoint, kMaintenanceInterval, seconds] at hx hy
  omega

/-- What was heard since the last tick of the other side is not too old. -/
theorem OnTime.fresh {t₀ : TimePoint} {s : Link} {r : Schedule} (h : OnTime t₀ s r)
    {x : Side} {l : TimePoint} (hl : r.due x - kMaintenanceInterval ≤ l) :
    s.now - l ≤ kKeepaliveTimeout := by
  have hx := h x
  simp only [TimePoint, kMaintenanceInterval, kKeepaliveTimeout, seconds] at hx hl ⊢
  omega

theorem OnTime.heard {t₀ : TimePoint} {s : Link} {r : Schedule} (h : OnTime t₀ s r)
    (x : Side) : r.due x - kMaintenanceInterval ≤ s.now := by
  have hx := (h x).2.1
  dsimp only [TimePoint] at hx ⊢
  omega

/-! ## Both sides hold each other -/

theorem Mutual.ne_none {s : Link} {r : Schedule} (h : Mutual s r) (x : Side) :
    s.seen x ≠ none := by
  obtain ⟨l, hl, -⟩ := h.held x
  simp [hl]

theorem Mutual.congr {s s' : Link} {r r' : Schedule} (h : Mutual s r)
    (hseen : s'.seen = s.seen) (hflight : ∀ p, p ∈ s'.inFlight ↔ p ∈ s.inFlight)
    (hdue : r'.due = r.due) : Mutual s' r' := by
  refine ⟨fun x ↦ ?_, fun p hp ↦ h.quiet p ((hflight p).mp hp)⟩
  obtain ⟨l, hl, hfresh⟩ := h.held x
  refine ⟨l, by rw [hseen, hl], ?_⟩
  rw [hdue]
  exact hfresh.imp_right fun ⟨c, hc⟩ ↦ ⟨c, (hflight _).mpr hc⟩

theorem Mutual.step {t₀ : TimePoint} {s : Link} {r : Schedule} (h : Mutual s r)
    (ht : OnTime t₀ s r) {e : HandshakeEvent}
    (hallows : r.Allows s.now (s.inFlight = []) e) :
    Mutual (s.step e) (r.advance e) := by
  cases e with
  | tick x =>
      obtain ⟨hnow, hsettled⟩ := hallows
      have hheard : ∀ y, ∃ l, s.seen y = some l ∧
          r.due y.other - kMaintenanceInterval ≤ l := by
        intro y
        obtain ⟨l, hl, hfresh | ⟨c, hc⟩⟩ := h.held y
        · exact ⟨l, hl, hfresh⟩
        · rw [hsettled] at hc
          cases hc
      obtain ⟨l, hl, hfresh⟩ := hheard x
      simp only [Link.step, tick_of_fresh hl (ht.fresh hfresh)]
      refine ⟨fun y ↦ ?_, ?_⟩
      · obtain ⟨l', hl', hfresh'⟩ := hheard y
        refine ⟨l', hl', ?_⟩
        rcases Side.eq_or_eq_other x y with rfl | rfl
        · rw [Schedule.advance_due_other]
          exact Or.inl hfresh'
        · exact Or.inr ⟨.keepalive, by simp⟩
      · intro p hp
        rw [post_inFlight, hsettled, List.nil_append, List.mem_singleton] at hp
        simp [hp]
  | deliver i =>
      rcases step_deliver_cases s i with heq | ⟨p, rest, hp, hsub, hrest, heq⟩
      · rw [heq]
        exact h
      · obtain ⟨z, c⟩ := p
        obtain ⟨l, hl, -⟩ := h.held z.other
        rw [heq, receive_of_held (s := { s with inFlight := rest }) hl (h.quiet _ hp)]
        refine ⟨fun y ↦ ?_, fun q hq ↦ h.quiet q (hsub q hq)⟩
        rcases Side.eq_or_eq_other z y with rfl | rfl
        · -- the sender's own entry, kept fresh by a packet that is still in flight
          obtain ⟨l', hl', hfresh⟩ := h.held y
          refine ⟨l', by simpa [hold] using hl', ?_⟩
          apply hfresh.imp_right
          rintro ⟨c', hc'⟩
          exact ⟨c', hrest _ hc' (by simp)⟩
        · exact ⟨s.now, by simp, Or.inl (ht.heard _)⟩
  | duplicate i =>
      exact h.congr rfl (mem_inFlight_duplicate s i) rfl
  | elapse d => exact h.congr rfl (fun _ ↦ Iff.rfl) rfl
  | lose i => exact hallows.elim
  | restart x graceful => exact hallows.elim

/-! ## One side holds the other in vain -/

theorem HalfOpen.congr {x : Side} {s s' : Link} {r r' : Schedule} (h : HalfOpen x s r)
    (hseen : s'.seen = s.seen) (hflight : ∀ p, p ∈ s'.inFlight ↔ p ∈ s.inFlight)
    (hdue : r'.due = r.due) : HalfOpen x s' r' := by
  refine ⟨by rw [hseen, h.released], ?_, fun p hp ↦ h.traffic p ((hflight p).mp hp)⟩
  obtain ⟨l, hl, hfresh⟩ := h.held
  refine ⟨l, by rw [hseen, hl], ?_⟩
  rw [hdue]
  exact hfresh.imp_right (hflight _).mpr

theorem HalfOpen.step {t₀ : TimePoint} {x : Side} {s : Link} {r : Schedule}
    (h : HalfOpen x s r) (ht : OnTime t₀ s r) {e : HandshakeEvent}
    (hallows : r.Allows s.now (s.inFlight = []) e) :
    HalfOpen x (s.step e) (r.advance e) := by
  obtain ⟨l, hl, hfresh⟩ := h.held
  cases e with
  | tick y =>
      obtain ⟨hnow, hsettled⟩ := hallows
      have hheard : r.due x - kMaintenanceInterval ≤ l := by
        rcases hfresh with hfresh | hmem
        · exact hfresh
        · rw [hsettled] at hmem
          cases hmem
      rcases Side.eq_or_eq_other x y with rfl | rfl
      · simp only [Link.step, tick_of_released h.released]
        refine ⟨h.released, ⟨l, hl, Or.inr (by simp)⟩, ?_⟩
        intro p hp
        rw [post_inFlight, hsettled, List.nil_append, List.mem_singleton] at hp
        exact Or.inl hp
      · simp only [Link.step, tick_of_fresh hl (ht.fresh hheard)]
        refine ⟨h.released, ⟨l, hl, Or.inl ?_⟩, ?_⟩
        · have hdue := Schedule.advance_due_other r x.other
          rw [Side.other_other] at hdue
          rwa [hdue]
        · intro p hp
          rw [post_inFlight, hsettled, List.nil_append, List.mem_singleton] at hp
          exact Or.inr hp
  | deliver i =>
      rcases step_deliver_cases s i with heq | ⟨p, rest, hp, hsub, hrest, heq⟩
      · rw [heq]
        exact h
      · rw [heq]
        rcases h.traffic p hp with rfl | rfl
        · rw [receive_of_held (s := { s with inFlight := rest }) hl (by simp)]
          refine ⟨?_, ⟨s.now, by simp, Or.inl (ht.heard _)⟩,
            fun q hq ↦ h.traffic q (hsub q hq)⟩
          rw [hold_other_seen]
          exact h.released
        · have hreleased : { s with inFlight := rest }.seen x.other.other = none := by
            rw [Side.other_other]
            exact h.released
          rw [receive_keepalive_of_released hreleased]
          refine ⟨h.released, ⟨l, hl, ?_⟩, fun q hq ↦ h.traffic q (hsub q hq)⟩
          exact hfresh.imp_right fun hmem ↦ hrest _ hmem (by simp)
  | duplicate i => exact h.congr rfl (mem_inFlight_duplicate s i) rfl
  | elapse d => exact h.congr rfl (fun _ ↦ Iff.rfl) rfl
  | lose i => exact hallows.elim
  | restart y graceful => exact hallows.elim

theorem halfOpen_of_not_reciprocated {s : Link} (r : Schedule) {e : HandshakeEvent}
    (hsettled : ∀ x, e = .tick x → s.inFlight = []) (h : ¬ s.Reciprocated e) :
    ∃ x, HalfOpen x (s.step e) (r.advance e) := by
  cases e with
  | tick x =>
      simp only [Reciprocated, Classical.not_imp, not_not] at h
      obtain ⟨hheld, hreleased⟩ := h
      obtain ⟨l, hl⟩ := Option.ne_none_iff_exists'.mp hheld
      refine ⟨x, ?_⟩
      simp only [Link.step, tick_of_released hreleased]
      refine ⟨hreleased, ⟨l, hl, Or.inr (by simp)⟩, fun p hp ↦ Or.inl ?_⟩
      rwa [post_inFlight, hsettled x rfl, List.nil_append, List.mem_singleton] at hp
  | _ => exact absurd trivial h

theorem HalfOpen.not_mutual {x : Side} {s : Link} {r : Schedule} (h : HalfOpen x s r) :
    ¬ ∀ y, s.seen y ≠ none :=
  fun hall ↦ hall x h.released

/-! ## Before it is decided -/

theorem Undecided.congr {s s' : Link} {r r' : Schedule} (h : Undecided s r)
    (hseen : s'.seen = s.seen) (hflight : ∀ p, p ∈ s'.inFlight ↔ p ∈ s.inFlight)
    (hr : r' = r) : Undecided s' r' := by
  subst hr
  have htraffic : ∀ {P : Side × Control → Prop}, (∀ p ∈ s.inFlight, P p) →
      ∀ p ∈ s'.inFlight, P p := fun hP p hp ↦ hP p ((hflight p).mp hp)
  cases h with
  | unticked hticks => exact .unticked hticks
  | refreshing x hticks hheld hother hall =>
      obtain ⟨l, hl, hfresh⟩ := hother
      exact .refreshing x hticks (by rwa [hseen])
        ⟨l, by rwa [hseen], hfresh.imp_right (hflight _).mpr⟩ (htraffic hall)
  | lopsided x hticks hreleased hheld hall =>
      exact .lopsided x hticks (by rwa [hseen]) (by rwa [hseen]) (htraffic hall)
  | apart hticks hreleased hnone =>
      exact .apart hticks (by rwa [hseen]) fun p hp ↦ hnone p ((hflight p).mp hp)
  | greeting x hticks hreleased hsent hall =>
      exact .greeting x hticks (by rwa [hseen]) ((hflight _).mpr hsent) (htraffic hall)
  | answering x hticks hreleased hheld hsent hall =>
      exact .answering x hticks (by rwa [hseen]) (by rwa [hseen]) ((hflight _).mpr hsent)
        (htraffic hall)

theorem Undecided.tick_unticked {s : Link} {r : Schedule}
    (hticks : ∀ x, r.ticks x = 0) {x : Side} (hsettled : s.inFlight = [])
    (hmutual : s.Reciprocated (.tick x)) :
    Undecided (s.tick x) (r.advance (.tick x)) := by
  have hself : (r.advance (.tick x)).ticks x ≤ 2 := by simp [hticks x]
  have hother : (r.advance (.tick x)).ticks x.other = 0 := by simp [hticks x.other]
  cases hx : s.seen x with
  | none =>
      have hy : s.seen x.other = none := by
        by_contra hy
        exact hmutual hy hx
      rw [tick_of_released hx]
      refine .greeting x ⟨x, by omega⟩ (fun y ↦ ?_) (by simp) ?_
      · rcases Side.eq_or_eq_other x y with rfl | rfl
        · exact hx
        · exact hy
      · simp [hsettled]
  | some l =>
      by_cases hlate : kKeepaliveTimeout < s.now - l
      · rw [tick_of_late hx hlate]
        cases hy : s.seen x.other with
        | none =>
            refine .apart ⟨x, hself⟩ (fun y ↦ ?_) (by simp [hsettled])
            rcases Side.eq_or_eq_other x y with rfl | rfl
            · exact hold_seen_self ..
            · rw [hold_seen_other, hy]
        | some l' =>
            exact .lopsided x hself (hold_seen_self ..)
              (by rw [hold_seen_other, hy]; simp) (by simp [hsettled])
      · rw [tick_of_fresh hx (not_lt.mp hlate)]
        cases hy : s.seen x.other with
        | none =>
            refine .lopsided x.other (by omega) hy ?_ (by simp [hsettled])
            rw [Side.other_other, post_seen, hx]
            simp
        | some l' =>
            exact .refreshing x hother (by simp [hx])
              ⟨l', hy, Or.inr (by simp)⟩ (by simp [hsettled])

theorem Undecided.tick {t₀ : TimePoint} {s : Link} {r : Schedule} (h : Undecided s r)
    (ht : OnTime t₀ s r) {y : Side} (hnow : s.now = r.due y) (hsettled : s.inFlight = [])
    (hmutual : s.Reciprocated (.tick y)) :
    Undecided (s.tick y) (r.advance (.tick y)) ∨ Mutual (s.tick y) (r.advance (.tick y)) := by
  have htime := ht.step (e := .tick y) ⟨hnow, hsettled⟩
  cases h with
  | unticked hticks => exact Or.inl (tick_unticked hticks hsettled hmutual)
  | refreshing x hticks hheld hother hall =>
      obtain ⟨l, hl⟩ := Option.ne_none_iff_exists'.mp hheld
      obtain ⟨l', hl', hfresh | hmem⟩ := hother
      · rcases Side.eq_or_eq_other x y with rfl | rfl
        · left
          have hother : (r.advance (.tick y)).ticks y.other = 0 := by simp [hticks]
          by_cases hlate : kKeepaliveTimeout < s.now - l
          · rw [tick_of_late hl hlate]
            exact .lopsided y (htime.ticks_le hother) (hold_seen_self ..)
              (by rw [hold_seen_other, hl']; simp) (by simp [hsettled])
          · rw [tick_of_fresh hl (not_lt.mp hlate)]
            exact .refreshing y hother (by simp [hl]) ⟨l', hl', Or.inr (by simp)⟩
              (by simp [hsettled])
        · right
          rw [tick_of_fresh hl' (ht.fresh hfresh)]
          refine ⟨fun z ↦ ?_, by simp [hsettled]⟩
          rcases Side.eq_or_eq_other x z with rfl | rfl
          · exact ⟨l, hl, Or.inr ⟨.keepalive, by simp⟩⟩
          · refine ⟨l', hl', Or.inl ?_⟩
            have hdue := Schedule.advance_due_other r x.other
            rw [Side.other_other] at hdue ⊢
            rwa [hdue]
      · rw [hsettled] at hmem
        cases hmem
  | lopsided x hticks hreleased hheld hall =>
      rcases Side.eq_or_eq_other x y with rfl | rfl
      · exact absurd hreleased (hmutual hheld)
      · left
        have hx : (r.advance (.tick x.other)).ticks x = r.ticks x := by
          simpa using Schedule.advance_ticks_other r x.other
        obtain ⟨l, hl⟩ := Option.ne_none_iff_exists'.mp hheld
        by_cases hlate : kKeepaliveTimeout < s.now - l
        · rw [tick_of_late hl hlate]
          refine .apart ⟨x, hx ▸ hticks⟩ (fun z ↦ ?_) (by simp [hsettled])
          rcases Side.eq_or_eq_other x z with rfl | rfl
          · rw [hold_other_seen]
            exact hreleased
          · exact hold_seen_self ..
        · rw [tick_of_fresh hl (not_lt.mp hlate)]
          exact .lopsided x (hx ▸ hticks) hreleased hheld (by simp [hsettled])
  | apart hticks hreleased hnone =>
      left
      rw [tick_of_released (hreleased y)]
      refine .greeting y ?_ hreleased (by simp) (by simp [hsettled])
      obtain ⟨z, hz⟩ := hticks
      refine ⟨z, ?_⟩
      rcases Side.eq_or_eq_other y z with rfl | rfl
      · rw [Schedule.advance_ticks_self]
        omega
      · simp only [Schedule.advance_ticks_other]
        omega
  | greeting x hticks hreleased hsent hall =>
      rw [hsettled] at hsent
      cases hsent
  | answering x hticks hreleased hheld hsent hall =>
      rw [hsettled] at hsent
      cases hsent

theorem Undecided.deliver {t₀ : TimePoint} {s : Link} {r : Schedule} (h : Undecided s r)
    (ht : OnTime t₀ s r) (i : ℕ) :
    Undecided (s.step (.deliver i)) r ∨ Mutual (s.step (.deliver i)) r := by
  rcases step_deliver_cases s i with heq | ⟨p, rest, hp, hsub, hrest, heq⟩
  · rw [heq]
    exact Or.inl h
  rw [heq]
  have htraffic : ∀ {P : Side × Control → Prop}, (∀ q ∈ s.inFlight, P q) →
      ∀ q ∈ rest, P q := fun hP q hq ↦ hP q (hsub q hq)
  cases h with
  | unticked hticks => exact Or.inl (.unticked hticks)
  | refreshing x hticks hheld hother hall =>
      left
      obtain rfl := hall p hp
      obtain ⟨l', hl', -⟩ := hother
      rw [receive_of_held (s := { s with inFlight := rest }) hl' (by simp)]
      refine .refreshing x hticks ?_ ⟨s.now, hold_seen_self .., Or.inl (ht.heard x)⟩
        (htraffic hall)
      rw [hold_other_seen]
      exact hheld
  | lopsided x hticks hreleased hheld hall =>
      left
      obtain rfl := hall p hp
      have hx : { s with inFlight := rest }.seen x.other.other = none := by
        rw [Side.other_other]
        exact hreleased
      rw [receive_keepalive_of_released hx]
      exact .lopsided x hticks hreleased hheld (htraffic hall)
  | apart hticks hreleased hnone => exact absurd hp (hnone p)
  | greeting x hticks hreleased hsent hall =>
      left
      obtain rfl := hall p hp
      rw [receive_hello_of_released (s := { s with inFlight := rest }) (hreleased _)]
      refine .answering x hticks ?_ ⟨s.now, by simp, ht.heard x⟩ (by simp) ?_
      · rw [post_seen, hold_other_seen]
        exact hreleased x
      · intro q hq
        rcases List.mem_append.mp hq with hq | hq
        · exact Or.inl (hall q (hsub q hq))
        · exact Or.inr (List.mem_singleton.mp hq)
  | answering x hticks hreleased hheld hsent hall =>
      obtain ⟨l, hl, hfresh⟩ := hheld
      rcases hall p hp with rfl | rfl
      · left
        rw [receive_of_held (s := { s with inFlight := rest }) hl (by simp)]
        refine .answering x hticks ?_ ⟨s.now, by simp, ht.heard x⟩
          (hrest _ hsent (by simp)) (htraffic hall)
        rw [hold_other_seen]
        exact hreleased
      · right
        have hx : { s with inFlight := rest }.seen x.other.other = none := by
          rw [Side.other_other]
          exact hreleased
        rw [receive_hello_of_released hx, Side.other_other]
        refine ⟨fun z ↦ ?_, ?_⟩
        · rcases Side.eq_or_eq_other x z with rfl | rfl
          · exact ⟨s.now, by simp, Or.inl (ht.heard _)⟩
          · refine ⟨l, by simpa using hl, Or.inl ?_⟩
            rwa [Side.other_other]
        · intro q hq
          rcases List.mem_append.mp hq with hq | hq
          · rcases hall q (hsub q hq) with rfl | rfl <;> simp
          · rw [List.mem_singleton.mp hq]
            simp

theorem Undecided.step {t₀ : TimePoint} {s : Link} {r : Schedule} (h : Undecided s r)
    (ht : OnTime t₀ s r) {e : HandshakeEvent}
    (hallows : r.Allows s.now (s.inFlight = []) e) (hmutual : s.Reciprocated e) :
    Undecided (s.step e) (r.advance e) ∨ Mutual (s.step e) (r.advance e) := by
  cases e with
  | tick y => exact h.tick ht hallows.1 hallows.2 hmutual
  | deliver i => exact h.deliver ht i
  | duplicate i => exact Or.inl (h.congr rfl (mem_inFlight_duplicate s i) rfl)
  | elapse d => exact Or.inl (h.congr rfl (fun _ ↦ Iff.rfl) rfl)
  | lose i => exact hallows.elim
  | restart y graceful => exact hallows.elim

theorem Undecided.exists_ticks_le {s : Link} {r : Schedule} (h : Undecided s r) :
    ∃ x, r.ticks x ≤ 3 := by
  cases h with
  | unticked hticks => exact ⟨.a, by simp [hticks]⟩
  | refreshing x hticks => exact ⟨x.other, by omega⟩
  | lopsided x hticks => exact ⟨x, by omega⟩
  | apart hticks => exact hticks.imp fun _ h ↦ by omega
  | greeting x hticks => exact hticks
  | answering x hticks => exact hticks

/-! ## The whole recovery -/

theorem reciprocated_of_mutual {s : Link} {r : Schedule} (h : Mutual s r)
    (e : HandshakeEvent) : s.Reciprocated e := by
  cases e with
  | tick x => exact fun _ ↦ h.ne_none x
  | _ => trivial

theorem mutual_of_recovering {t₀ : TimePoint} {p : Link × Schedule}
    (h : Mutual p.1 p.2) (ht : OnTime t₀ p.1 p.2) {es : List HandshakeEvent}
    (hes : Along scheduled Recovering p es) :
    Mutual (run scheduled p es).1 (run scheduled p es).2 ∧
      Along machine Reciprocated p.1 es := by
  induction es generalizing p with
  | nil => exact ⟨h, trivial⟩
  | cons e es ih =>
      obtain ⟨hfinal, halong⟩ := ih (h.step ht hes.1) (ht.step hes.1) hes.2
      exact ⟨hfinal, reciprocated_of_mutual h e, halong⟩

theorem halfOpen_of_recovering {t₀ : TimePoint} {x : Side} {p : Link × Schedule}
    (h : HalfOpen x p.1 p.2) (ht : OnTime t₀ p.1 p.2) {es : List HandshakeEvent}
    (hes : Along scheduled Recovering p es) :
    HalfOpen x (run scheduled p es).1 (run scheduled p es).2 := by
  induction es generalizing p with
  | nil => exact h
  | cons e es ih => exact ih (h.step ht hes.1) (ht.step hes.1) hes.2

/-- A recovery with four ticks of both sides ends with both holding each other
exactly when every tick was reciprocated. -/
theorem recovers_iff {t₀ : TimePoint} {p : Link × Schedule}
    (h : Undecided p.1 p.2) (ht : OnTime t₀ p.1 p.2) {es : List HandshakeEvent}
    (hes : Along scheduled Recovering p es)
    (hticks : ∀ x, 4 ≤ (run scheduled p es).2.ticks x) :
    (∀ x, (run scheduled p es).1.seen x ≠ none) ↔ Along machine Reciprocated p.1 es := by
  induction es generalizing p with
  | nil =>
      obtain ⟨x, hx⟩ := h.exists_ticks_le
      have hfour := hticks x
      rw [run_nil] at hfour
      omega
  | cons e es ih =>
      have htime := ht.step hes.1
      by_cases hmutual : p.1.Reciprocated e
      · rw [along_cons, and_iff_right hmutual]
        rcases h.step ht hes.1 hmutual with hundecided | hdone
        · exact ih hundecided htime hes.2 hticks
        · obtain ⟨hfinal, halong⟩ := mutual_of_recovering hdone htime hes.2
          exact iff_of_true hfinal.ne_none halong
      · have hsettled : ∀ x, e = .tick x → p.1.inFlight = [] := by
          rintro x rfl
          exact hes.1.2
        obtain ⟨x, hopen⟩ := halfOpen_of_not_reciprocated p.2 hsettled hmutual
        have hfinal := halfOpen_of_recovering hopen htime hes.2
        exact iff_of_false hfinal.not_mutual fun halong ↦ hmutual halong.1

end Link

end Handshake

end LinkExtender
