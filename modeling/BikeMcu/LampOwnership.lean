import BikeMcu.TaskHandles

namespace BikeMcu.LampOwnership

open BikeMcu.LampCommands
open BikeMcu.UdpServer
open BikeMcu.NetworkLifecycle
open BikeMcu.BoardSystem

/-- Everything a board step can do to the lamp: nothing, one statement inside a
call, or the entry of a call by one of the three callers. -/
theorem lamp_cases {b b' : Board} {e : BoardEvent} (h : step b e = some b') :
    b'.lamp = b.lamp ∨
    (∃ t a, e = .lamp t a ∧ LampCommands.step b.lamp t a = some b'.lamp) ∨
    (∃ t c, (t = .detectBrake1 ∨ t = udpTask ∨ t = .bleCallback) ∧
      sendSignal c b.lamp t = some b'.lamp) := by
  cases e with
  | post e =>
      obtain ⟨n, -, rfl⟩ := netStep_eq_some h
      exact .inl rfl
  | main ok =>
      obtain ⟨n, -, rfl⟩ := netStep_eq_some h
      exact .inl rfl
  | monitor =>
      obtain ⟨n, -, rfl⟩ := netStep_eq_some h
      exact .inl rfl
  | lamp t a =>
      obtain ⟨-, l, hl, rfl⟩ := step_lamp_eq_some h
      exact .inr (.inl ⟨t, a, rfl, hl⟩)
  | detect a =>
      rcases detectStep_cases h with ⟨-, l, hl, rfl⟩ | ⟨-, -, rfl⟩ |
        ⟨-, l, hl, rfl⟩ | ⟨-, -, rfl⟩
      · exact .inr (.inr ⟨_, _, .inl rfl, hl⟩)
      · exact .inl rfl
      · exact .inr (.inr ⟨_, _, .inl rfl, hl⟩)
      · exact .inl rfl
  | udp a =>
      obtain ⟨-, u, b₁, -, heffect, rfl⟩ := step_udp_eq_some h
      rcases udpEffect_cases heffect with ⟨g, l, -, hl, rfl⟩ | ⟨-, -, rfl⟩ |
        ⟨n, -, -, rfl⟩ | ⟨-, -, -, rfl⟩
      · exact .inr (.inr ⟨_, _, .inr (.inl rfl), hl⟩)
      · exact .inl rfl
      · exact .inl rfl
      · exact .inl rfl
  | notify cmd =>
      rcases step_notify_eq_some h with rfl | ⟨g, l, -, hl, rfl⟩
      · exact .inl rfl
      · exact .inr (.inr ⟨_, _, .inr (.inr rfl), hl⟩)

/-- Who uses the lamp, and when: only the detector, the UDP server and the
Bluetooth callback, one at a time, and the UDP server only between its call and
the return from it. -/
structure Owned (b : Board) : Prop where
  exclusive : Exclusive b.lamp
  callers : ∀ t, b.lamp.point t ≠ .outside →
    t = .detectBrake1 ∨ t = udpTask ∨ t = .bleCallback
  udp : (∀ todo, b.udp.point ≠ .signalling todo) →
    b.lamp.point udpTask = .outside

theorem owned_boot (n : Storage.Nvs) (read : Bool) (ok : Fin 4 → Bool) :
    Owned (boot n read ok) where
  exclusive := ⟨fun t => by simp [boot, i2cInit, sendAlone, lampInit, SendPoint.critical],
    fun t c h => by simp [boot, i2cInit, sendAlone, lampInit] at h,
    fun t c h => by simp [boot, i2cInit, sendAlone, lampInit] at h⟩
  callers t h := by simp [boot, i2cInit, sendAlone, lampInit] at h
  udp _ := rfl

theorem callers_of_sendSignal {l l' : Lamp Task} {t : Task} {c : UInt8}
    {P : Task → Prop} (hP : ∀ u, l.point u ≠ .outside → P u) (ht : P t)
    (h : sendSignal c l t = some l') : ∀ u, l'.point u ≠ .outside → P u := by
  obtain ⟨-, rfl⟩ := sendSignal_eq_some h
  intro u hu
  by_cases hut : u = t
  · exact hut ▸ ht
  · exact hP u (by simpa [Lamp.setPoint, hut] using hu)

theorem callers_of_step {l l' : Lamp Task} {t : Task} {a : LampStep}
    {P : Task → Prop} (hP : ∀ u, l.point u ≠ .outside → P u)
    (h : LampCommands.step l t a = some l') : ∀ u, l'.point u ≠ .outside → P u := by
  obtain ⟨ht, hother⟩ := step_frame h
  intro u hu
  by_cases hut : u = t
  · exact hut ▸ hP t ht
  · exact hP u (hother u hut ▸ hu)

theorem point_of_sendSignal {l l' : Lamp Task} {t u : Task} {c : UInt8}
    (h : sendSignal c l t = some l') (hut : u ≠ t) : l'.point u = l.point u := by
  obtain ⟨-, rfl⟩ := sendSignal_eq_some h
  exact point_setPoint_of_ne l _ hut

theorem udp_outside_step {b b' : Board} {e : BoardEvent} (h : Owned b)
    (hstep : step b e = some b')
    (hpoint : ∀ todo, b'.udp.point ≠ .signalling todo) :
    b'.lamp.point udpTask = .outside := by
  cases e with
  | post e =>
      obtain ⟨n, -, rfl⟩ := netStep_eq_some hstep
      exact h.udp hpoint
  | main ok =>
      obtain ⟨n, -, rfl⟩ := netStep_eq_some hstep
      exact h.udp hpoint
  | monitor =>
      obtain ⟨n, -, rfl⟩ := netStep_eq_some hstep
      exact h.udp hpoint
  | lamp t a =>
      obtain ⟨-, l, hl, rfl⟩ := step_lamp_eq_some hstep
      have hout := h.udp hpoint
      obtain ⟨ht, hother⟩ := step_frame hl
      have hne : udpTask ≠ t := by
        rintro rfl
        exact ht hout
      exact (hother _ hne).trans hout
  | detect a =>
      rcases detectStep_cases hstep with ⟨-, l, hl, rfl⟩ | ⟨-, -, rfl⟩ |
        ⟨-, l, hl, rfl⟩ | ⟨-, -, rfl⟩
      · exact (point_of_sendSignal hl (by simp)).trans (h.udp hpoint)
      · exact h.udp hpoint
      · exact (point_of_sendSignal hl (by simp)).trans (h.udp hpoint)
      · exact h.udp hpoint
  | udp a =>
      obtain ⟨-, u, b₁, hu, heffect, rfl⟩ := step_udp_eq_some hstep
      have hbefore : a ≠ .returned → b.lamp.point udpTask = .outside := fun ha =>
        h.udp fun todo htodo => ha (returned_of_signalling htodo hu)
      rcases udpEffect_cases heffect with ⟨g, l, rfl, hl, rfl⟩ | ⟨-, hout, rfl⟩ |
        ⟨n, rfl, -, rfl⟩ | ⟨-, ha, -, rfl⟩
      · obtain ⟨todo, htodo⟩ := signalling_of_call hu
        exact absurd htodo (hpoint todo)
      · exact hout
      · exact hbefore (by simp)
      · exact hbefore ha
  | notify cmd =>
      rcases step_notify_eq_some hstep with rfl | ⟨g, l, -, hl, rfl⟩
      · exact h.udp hpoint
      · exact (point_of_sendSignal hl (by simp)).trans (h.udp hpoint)

theorem Owned.step {b b' : Board} {e : BoardEvent} (h : Owned b)
    (hstep : BoardSystem.step b e = some b') : Owned b' where
  exclusive := by
    rcases lamp_cases hstep with heq | ⟨t, a, -, hl⟩ | ⟨t, c, -, hl⟩
    · exact heq ▸ h.exclusive
    · exact h.exclusive.step hl
    · exact h.exclusive.sendSignal hl
  callers := by
    rcases lamp_cases hstep with heq | ⟨t, a, -, hl⟩ | ⟨t, c, ht, hl⟩
    · exact heq ▸ h.callers
    · exact callers_of_step h.callers hl
    · exact callers_of_sendSignal h.callers ht hl
  udp := udp_outside_step h hstep

end BikeMcu.LampOwnership
