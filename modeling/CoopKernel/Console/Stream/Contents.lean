import CoopKernel.Console.Stream.Basic

/-!
# Contents of a byte stream

The bytes held, as a list. Wherever head and tail stand, a push appends what fits
(`contents_push`) and a pop takes from the front (`contents_of_pop`).
-/

namespace CoopKernel.Stream

/-- The bytes held, oldest first. -/
def contents (s : Stream) : List UInt8 :=
  (List.range s.held).map fun i => s.ring.get ((s.tail.toNat + i) % s.capacity)

@[simp] theorem length_contents (s : Stream) : s.contents.length = s.held := by simp [contents]

theorem getElem_contents (s : Stream) (i : Nat) (h : i < s.contents.length) :
    s.contents[i] = s.ring.get ((s.tail.toNat + i) % s.capacity) := by simp [contents]

@[simp] theorem capacity_push (bytes : List UInt8) (s : Stream) :
    (s.push bytes).2.capacity = s.capacity := rfl

theorem held_push (bytes : List UInt8) (s : Stream) :
    (s.push bytes).2.held = s.held + (s.push bytes).1 := by
  have := s.held_add_room
  have := s.capacity_le
  exact toNat_add_sub _ _ _ (by change s.held + min bytes.length s.room < _; omega)

/-- Positions count on from the tail through the bytes held to the head. -/
theorem head_add_mod (s : Stream) (d : Nat) :
    (s.head.toNat + d) % s.capacity = (s.tail.toNat + s.held + d) % s.capacity := by
  have hs : (s.tail.toNat + s.held) % 2 ^ 64 = s.head.toNat := by
    have := s.head.toNat_lt
    have := s.tail.toNat_lt
    simp only [held, UInt64.toNat_sub]
    omega
  rw [← hs, ← Nat.mod_add_mod, Nat.mod_mod_of_dvd _ s.capacity_dvd, Nat.mod_add_mod]

/-- A position less than twice round the ring. -/
theorem mod_of_lt_twice {a c : Nat} (h : a < 2 * c) : a % c = if a < c then a else a - c := by
  split
  · exact Nat.mod_eq_of_lt (by assumption)
  · rw [Nat.mod_eq_sub_mod (by omega), Nat.mod_eq_of_lt (by omega)]

theorem get_blit (ring : Bank Nat UInt8) (position : Nat) (bytes : List UInt8) (i : Nat) :
    (blit ring position bytes).get i =
      if position ≤ i ∧ i < position + bytes.length then bytes.getD (i - position) 0
      else ring.get i := by
  induction bytes generalizing ring position with
  | nil => rw [blit, if_neg (by simp only [List.length_nil]; omega)]
  | cons b rest ih =>
    rw [blit, ih]
    by_cases h : position + 1 ≤ i ∧ i < position + 1 + rest.length
    · obtain ⟨k, rfl⟩ := Nat.exists_eq_add_of_le h.1
      rw [if_pos h, if_pos (by simp only [List.length_cons]; omega)]
      have : position + 1 + k - position = k + 1 := by omega
      simp [this]
    · rw [if_neg h, Bank.get_set]
      by_cases hi : i = position
      · subst hi; simp
      · rw [if_neg hi, if_neg (by simp only [List.length_cons]; omega)]

theorem get_spread (bytes : List UInt8) (s : Stream) (h : bytes.length ≤ s.capacity) (d : Nat)
    (hd : d < s.capacity) :
    (s.spread bytes).get ((s.head.toNat + d) % s.capacity) =
      if d < bytes.length then bytes.getD d 0
      else s.ring.get ((s.head.toNat + d) % s.capacity) := by
  have hc := s.capacity_pos
  have hs : s.head.toNat % s.capacity < s.capacity := Nat.mod_lt _ hc
  rw [← Nat.mod_add_mod]
  simp only [spread, get_blit, List.length_take, List.length_drop]
  generalize s.head.toNat % s.capacity = start at hs
  generalize s.capacity = c at *
  rw [mod_of_lt_twice (by omega)]
  by_cases hw : start + d < c
  · rw [if_pos hw, if_neg (by omega)]
    by_cases hl : d < bytes.length
    · rw [if_pos (by omega), if_pos hl]
      simp [show d < c - start by omega]
    · rw [if_neg (by omega), if_neg hl]
  · rw [if_neg hw]
    by_cases hl : d < bytes.length
    · rw [if_pos (by omega), if_pos hl]
      simp [show c - start + (start + d - c) = d by omega]
    · rw [if_neg (by omega), if_neg (by omega), if_neg hl]

theorem contents_push (bytes : List UInt8) (s : Stream) :
    (s.push bytes).2.contents = s.contents ++ bytes.take (s.push bytes).1 := by
  have hr := s.held_add_room
  have hp : (s.push bytes).1 ≤ s.room := Nat.min_le_right _ _
  have hb : (s.push bytes).1 ≤ bytes.length := Nat.min_le_left _ _
  apply List.ext_getElem
  · simp [held_push, hb]
  · intro i hi hi'
    rw [length_contents, held_push] at hi
    rw [getElem_contents]
    change (s.spread (bytes.take (s.push bytes).1)).get ((s.tail.toNat + i) % s.capacity) = _
    have hl : (bytes.take (s.push bytes).1).length = (s.push bytes).1 := by simp [hb]
    by_cases hk : i < s.held
    · have he : s.tail.toNat + s.held + (i + s.room) = s.tail.toNat + i + s.capacity := by omega
      rw [← Nat.add_mod_right, ← he, ← head_add_mod, get_spread _ _ (by omega) _ (by omega),
        if_neg (by omega), head_add_mod, he, Nat.add_mod_right]
      simp [contents, hk]
    · have he : s.tail.toNat + s.held + (i - s.held) = s.tail.toNat + i := by omega
      rw [← he, ← head_add_mod, get_spread _ _ (by omega) _ (by omega), if_pos (by omega)]
      simp [List.getElem_append, hk, show i - s.held < (s.push bytes).1 by omega,
        show i - s.held < bytes.length by omega]

theorem pop_eq_none_iff (s : Stream) : s.pop = none ↔ s.contents = [] := by
  rw [← List.length_eq_zero_iff, length_contents, ← isEmpty_iff]
  unfold pop
  split <;> simp_all

theorem contents_of_pop {s s' : Stream} {b : UInt8} (h : s.pop = some (b, s')) :
    s.contents = b :: s'.contents := by
  unfold pop at h
  split at h
  · contradiction
  · rename_i he
    obtain ⟨rfl, rfl⟩ := Prod.mk.inj (Option.some.inj h)
    have hs : s.held ≠ 0 := fun e => he (s.isEmpty_iff.mpr e)
    obtain ⟨n, hn⟩ := Nat.exists_eq_succ_of_ne_zero hs
    have hn' : (s.head - (s.tail + 1)).toNat = n := by
      rw [toNat_sub_succ _ _ (Nat.pos_of_ne_zero hs)]; change s.held - 1 = n; omega
    have ht : ∀ i, ((s.tail + 1).toNat + i) % s.capacity =
        (s.tail.toNat + (i + 1)) % s.capacity := by
      intro i
      rw [UInt64.toNat_add, ← Nat.mod_add_mod, Nat.mod_mod_of_dvd _ s.capacity_dvd,
        Nat.mod_add_mod, Nat.add_assoc, Nat.add_comm i]
      rfl
    rw [contents, hn, List.range_succ_eq_map]
    simp only [List.map_cons, List.map_map, Nat.add_zero]
    congr 1
    change _ = (List.range (s.head - (s.tail + 1)).toNat).map
      fun i => s.ring.get (((s.tail + 1).toNat + i) % s.capacity)
    rw [hn']
    exact List.map_congr_left fun i _ => by rw [ht]; rfl

theorem popUpTo_eq (n : Nat) (s : Stream) :
    (s.popUpTo n).1 = s.contents.take n ∧ (s.popUpTo n).2.contents = s.contents.drop n := by
  induction n generalizing s with
  | zero => simp [popUpTo]
  | succ n ih =>
    rw [popUpTo]
    cases h : s.pop with
    | none => simp [(s.pop_eq_none_iff).mp h]
    | some r =>
      obtain ⟨b, s'⟩ := r
      have hi := ih s'
      simp [contents_of_pop h, hi]

end CoopKernel.Stream
