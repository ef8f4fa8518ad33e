import NotebookKernel.Digest.Running

namespace NotebookKernel

namespace Sha256

variable {a b : List UInt8}

theorem byte_append_left {i : Nat} (h : i < a.length) :
    (a ++ b).toArray.getD i 0 = a.toArray.getD i 0 := by
  rw [Array.getD_eq_getD_getElem?, Array.getD_eq_getD_getElem?, List.getElem?_toArray,
    List.getElem?_toArray, List.getElem?_append_left h]

theorem byte_append_right (a b : List UInt8) (i : Nat) :
    (a ++ b).toArray.getD (a.length + i) 0 = b.toArray.getD i 0 := by
  rw [Array.getD_eq_getD_getElem?, Array.getD_eq_getD_getElem?, List.getElem?_toArray,
    List.getElem?_toArray, List.getElem?_append_right (Nat.le_add_right _ _), Nat.add_sub_cancel_left]

theorem wordAt_append_left {i : Nat} (h : i + 3 < a.length) :
    wordAt (a ++ b).toArray i = wordAt a.toArray i := by
  have hbyte {j : Nat} (hj : j ≤ 3) :
      (a ++ b).toArray.getD (i + j) 0 = a.toArray.getD (i + j) 0 := byte_append_left (by omega)
  unfold wordAt
  dsimp only
  rw [hbyte (show 0 ≤ 3 by decide), hbyte (show 1 ≤ 3 by decide), hbyte (show 2 ≤ 3 by decide),
    hbyte (Nat.le_refl 3)]

theorem wordAt_append_right (a b : List UInt8) (i : Nat) :
    wordAt (a ++ b).toArray (a.length + i) = wordAt b.toArray i := by
  unfold wordAt
  dsimp only
  rw [Nat.add_assoc, Nat.add_assoc, Nat.add_assoc, Nat.add_assoc, byte_append_right,
    byte_append_right, byte_append_right, byte_append_right]

theorem window_append_left {n i : Nat} (ha : a.length = 64 * n) (hi : i < n) :
    window (a ++ b).toArray i = window a.toArray i := by
  have hword (j : Fin 16) : wordAt (a ++ b).toArray (64 * i + 4 * j.val) =
      wordAt a.toArray (64 * i + 4 * j.val) := wordAt_append_left (by omega)
  exact congrArg Vector.ofFn (funext hword)

theorem window_append_right {n : Nat} (ha : a.length = 64 * n) (b : List UInt8) (i : Nat) :
    window (a ++ b).toArray (n + i) = window b.toArray i := by
  have hword (j : Fin 16) : wordAt (a ++ b).toArray (64 * (n + i) + 4 * j.val) =
      wordAt b.toArray (64 * i + 4 * j.val) := by
    rw [Nat.mul_add, ← ha, Nat.add_assoc]
    exact wordAt_append_right a b _
  exact congrArg Vector.ofFn (funext hword)

theorem blocks_append {n : Nat} (ha : a.length = 64 * n) (b : List UInt8) :
    blocks (a ++ b) = blocks a ++ blocks b := by
  have hsize : (a ++ b).toArray.size / 64 = n + b.toArray.size / 64 := by
    rw [List.size_toArray, List.size_toArray, List.length_append, ha]
    omega
  have hfirst : a.toArray.size / 64 = n := by
    rw [List.size_toArray, ha]
    omega
  have hleft : (List.range n).map (window (a ++ b).toArray) = (List.range n).map (window a.toArray) :=
    List.map_congr_left fun i hi => window_append_left ha (List.mem_range.1 hi)
  have hright (k : Nat) : (List.range k).map (window (a ++ b).toArray ∘ (n + ·)) =
      (List.range k).map (window b.toArray) :=
    List.map_congr_left fun i _ => window_append_right ha b i
  unfold blocks
  dsimp only
  rw [hsize, hfirst, List.range_add, List.map_append, List.map_map, hleft, hright]

theorem absorb_append {n : Nat} (ha : a.length = 64 * n) (s : State) (b : List UInt8) :
    absorb s (a ++ b) = absorb (absorb s a) b := by
  rw [absorb, blocks_append ha, List.foldl_append]
  rfl

theorem absorb_short (h : a.length < 64) (s : State) : absorb s a = s := by
  have hnone : a.toArray.size / 64 = 0 := Nat.div_eq_of_lt h
  rw [absorb, blocks, hnone]
  rfl

theorem begun_short (h : a.length < 64) : begun a = a := by
  rw [begun, Nat.div_eq_of_lt h, Nat.mul_zero, List.drop_zero]

theorem begun_append {n : Nat} (ha : a.length = 64 * n) (b : List UInt8) : begun (a ++ b) = begun b := by
  have hlength : 64 * ((a ++ b).length / 64) = a.length + 64 * (b.length / 64) := by
    rw [List.length_append, ha]
    omega
  rw [begun, hlength, ← List.drop_drop, List.drop_left, begun]

theorem exists_blocks (a : List UInt8) : ∃ n whole, whole.length = 64 * n ∧ a = whole ++ begun a := by
  refine ⟨a.length / 64, a.take (64 * (a.length / 64)), ?_, (List.take_append_drop _ a).symm⟩
  rw [List.length_take]
  omega

/-- What is left of a piece can be put in front of the next one. -/
theorem absorb_carry (s : State) (a b : List UInt8) :
    absorb s (a ++ b) = absorb (absorb s a) (begun a ++ b) := by
  obtain ⟨n, whole, hwhole, ha⟩ := exists_blocks a
  have hshort := length_begun a
  generalize begun a = left at ha hshort
  rw [ha, List.append_assoc, absorb_append hwhole, absorb_append hwhole, absorb_short hshort]

theorem begun_carry (a b : List UInt8) : begun (a ++ b) = begun (begun a ++ b) := by
  obtain ⟨n, whole, hwhole, ha⟩ := exists_blocks a
  generalize begun a = left at ha
  rw [ha, List.append_assoc, begun_append hwhole]

namespace Running

variable (r : Running)

theorem update_nil : r.update [] = r := by
  ext1
  · rw [update_state, List.append_nil, absorb_short r.pending_lt]
  · rfl
  · rw [update_pending, List.append_nil, begun_short r.pending_lt]

theorem update_update (a b : List UInt8) : (r.update a).update b = r.update (a ++ b) := by
  ext1
  · simp only [update_state, update_pending, ← List.append_assoc]
    exact (absorb_carry ..).symm
  · simp only [update_length, List.length_append, Nat.add_assoc]
  · simp only [update_pending, ← List.append_assoc]
    exact (begun_carry ..).symm

/-- A digest under way ends in the digest of what has come in. -/
theorem finish_update_start (message : List UInt8) : (start.update message).finish = hash message := by
  have hlength : (start.update message).length = message.length := Nat.zero_add _
  rw [finish, update_update, hlength]
  rfl

end Running

end Sha256

namespace Hmac.Running

variable (r : Running)

theorem update_nil : r.update [] = r := by
  rw [update, Sha256.Running.update_nil]

theorem update_update (a b : List UInt8) : (r.update a).update b = r.update (a ++ b) := by
  simp only [update, Sha256.Running.update_update]

theorem foldl_update (pieces : List (List UInt8)) : pieces.foldl update r = r.update pieces.flatten := by
  induction pieces generalizing r with
  | nil => exact (update_nil r).symm
  | cons piece pieces ih => rw [List.foldl_cons, ih, update_update, List.flatten_cons]

theorem finish_update_keyed (key message : List UInt8) :
    ((keyed key).update message).finish = digest key message := by
  have hinner : ((keyed key).update message).inner =
      Sha256.Running.start.update (masked key 0x36 ++ message) := Sha256.Running.update_update ..
  have houter : ((keyed key).update message).outer = Sha256.Running.start.update (masked key 0x5c) := rfl
  rw [finish, hinner, houter, Sha256.Running.finish_update_start, Sha256.Running.update_update,
    Sha256.Running.finish_update_start, digest]

/-- Only the whole message counts, not where it was cut. -/
theorem finish_foldl_update (key : List UInt8) (pieces : List (List UInt8)) :
    (pieces.foldl update (keyed key)).finish = digest key pieces.flatten := by
  rw [foldl_update, finish_update_keyed]

end Hmac.Running

end NotebookKernel
