import ImagePipeline.Hash.Sha256
import ImagePipeline.Proofs.Text.Digits

/-! Hexadecimal digits of hashes. They are those of the words of a hash, each in eight digits, so
that equal digits are equal hashes. -/
namespace ImagePipeline.Sha256

variable {α β : Type}

/-- Lists that are put together from pieces of one length have the same pieces. -/
theorem flatMap_inj {f : α → List β} {width : Nat} (wide : ∀ a, (f a).length = width)
    (inj : ∀ a b, f a = f b → a = b) {xs ys : List α} (long : xs.length = ys.length)
    (same : xs.flatMap f = ys.flatMap f) : xs = ys := by
  induction xs generalizing ys with
  | nil => exact (List.eq_nil_of_length_eq_zero long.symm).symm
  | cons x xs ih =>
    cases ys with
    | nil => cases long
    | cons y ys =>
      rw [List.flatMap_cons, List.flatMap_cons] at same
      obtain ⟨first, rest⟩ := List.append_inj same ((wide x).trans (wide y).symm)
      rw [inj x y first, ih (Nat.succ.inj long) rest]

theorem State.words_inj {s t : State} (same : s.words = t.words) : s = t := by
  cases s
  cases t
  simpa [words] using same

theorem hexDigest_toList (message : List UInt8) : (hexDigest message).toList =
    (hash message).words.flatMap fun w => (Text.padded 16 8 w.toNat).toList := by
  rw [hexDigest, String.toList_join, List.flatMap_map]

theorem hexDigest_eq_iff {m n : List UInt8} : hexDigest m = hexDigest n ↔ hash m = hash n := by
  constructor
  · intro same
    have chars := congrArg String.toList same
    rw [hexDigest_toList, hexDigest_toList] at chars
    have wide (w : UInt32) : (Text.padded 16 8 w.toNat).toList.length = 8 :=
      Text.length_padded (by decide) (by decide) w.toNat_lt
    refine State.words_inj (flatMap_inj wide (fun v w alike => ?_) rfl chars)
    exact UInt32.toNat_inj.mp (Text.padded_inj (by decide) (by decide) (String.toList_inj.mp alike))
  · intro same
    rw [hexDigest, hexDigest, same]

end ImagePipeline.Sha256
