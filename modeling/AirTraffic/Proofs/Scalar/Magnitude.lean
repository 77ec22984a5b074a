import AirTraffic.Proofs.Scalar.Exact
import AirTraffic.Scalar.Floating

/-!
# Magnitudes of differences

How far apart two numbers are does not depend on which of them comes first. For exact numbers that
is algebra. Floating-point numbers keep it too: the sign of a number takes no part in how it is
rounded or laid out in bits, and the two differences have the same digits.
-/
namespace AirTraffic

class AbsSubComm (α : Type) [Scalar α] : Prop where
  abs_sub_comm (a b : α) : Scalar.abs (a - b) = Scalar.abs (b - a)

instance {α : Type} [ExactScalar α] : AbsSubComm α where
  abs_sub_comm a b := by rw [ExactScalar.abs_eq, ExactScalar.abs_eq, abs_sub_comm]

namespace Floating

open Float.Model (Format UnpackedFloat)
open Float.Model.UnpackedFloat (Sign)

variable {format : Format}

theorem abs_finite {s s' : Sign} {m m' : Nat} {e : Int} {hm : 0 < m} {hm' : 0 < m'} (h : m = m') :
    (UnpackedFloat.finite s m e hm).abs = (UnpackedFloat.finite s' m' e hm').abs := by
  subst h
  rfl

theorem abs_unpack_of_same {b c : BitVec format.numBits}
    (exponent : UnpackedFloat.unpackExponent b = UnpackedFloat.unpackExponent c)
    (mantissa : UnpackedFloat.unpackMantissa b = UnpackedFloat.unpackMantissa c) :
    (UnpackedFloat.unpack format b).abs = (UnpackedFloat.unpack format c).abs := by
  delta UnpackedFloat.unpack
  dsimp only
  rw [exponent]
  by_cases full : UnpackedFloat.unpackExponent c = -BitVec.ofNat format.exponentBits 1
  · rw [if_pos full, if_pos full, mantissa, apply_ite UnpackedFloat.abs,
      apply_ite UnpackedFloat.abs]
    rfl
  rw [if_neg full, if_neg full]
  by_cases small : UnpackedFloat.unpackExponent c = .ofNat format.exponentBits 0
  · rw [if_pos small, if_pos small]
    by_cases blank : UnpackedFloat.unpackMantissa c = .ofNat format.mantissaBitsWithoutImplicit 0
    · rw [dif_pos blank, dif_pos (mantissa.trans blank)]
      rfl
    · rw [dif_neg blank, dif_neg fun same => blank (mantissa.symm.trans same)]
      exact abs_finite (congrArg BitVec.toNat mantissa)
  · rw [if_neg small, if_neg small]
    exact abs_finite (congrArg (fun m => (1#1 ++ m).toNat) mantissa)

theorem abs_unpack_packComponents (s s' : Sign) (e : BitVec format.exponentBits)
    (m : BitVec format.mantissaBitsWithoutImplicit) :
    (UnpackedFloat.unpack format (UnpackedFloat.packComponents format s e m)).abs =
      (UnpackedFloat.unpack format (UnpackedFloat.packComponents format s' e m)).abs := by
  apply abs_unpack_of_same
  · rw [UnpackedFloat.unpackExponent_packComponents, UnpackedFloat.unpackExponent_packComponents]
  · rw [UnpackedFloat.unpackMantissa_packComponents, UnpackedFloat.unpackMantissa_packComponents]

theorem abs_unpack_pack (x : UnpackedFloat) :
    (UnpackedFloat.unpack format (UnpackedFloat.pack format x)).abs =
      (UnpackedFloat.unpack format (UnpackedFloat.pack format x.abs)).abs := by
  cases x with
  | notANumber => rfl
  | infinity s => exact abs_unpack_packComponents s .positive _ _
  | zero s => exact abs_unpack_packComponents s .positive _ _
  | finite s m e hm =>
    have positive : (UnpackedFloat.finite s m e hm).abs = .finite .positive m e hm := rfl
    rw [positive]
    delta UnpackedFloat.pack
    dsimp only
    split
    · exact abs_unpack_packComponents s .positive _ _
    · split
      · exact abs_unpack_packComponents s .positive _ _
      · exact abs_unpack_packComponents s .positive _ _

theorem abs_round (s s' : Sign) (m : Nat) (e : Int) :
    (UnpackedFloat.round format s m e).abs = (UnpackedFloat.round format s' m e).abs := by
  delta UnpackedFloat.round UnpackedFloat.roundWithAccuracy
  dsimp only
  rw [apply_dite UnpackedFloat.abs, apply_dite UnpackedFloat.abs]
  rfl

theorem abs_normalize_neg (m e : Int) (s : Sign) :
    (UnpackedFloat.normalize format (-m) e s).abs =
      (UnpackedFloat.normalize format m e s).abs := by
  unfold UnpackedFloat.normalize
  rcases Int.lt_trichotomy m 0 with below | rfl | above
  · rw [Int.compare_eq_gt.mpr (by omega : -m > 0), Int.compare_eq_lt.mpr below]
    exact abs_round .positive .negative _ _
  · rfl
  · rw [Int.compare_eq_lt.mpr (by omega : -m < 0), Int.compare_eq_gt.mpr above]
    dsimp only
    rw [Int.neg_neg]
    exact abs_round .negative .positive _ _

theorem abs_sub_unpacked (x y : UnpackedFloat) :
    (UnpackedFloat.sub format x y).abs = (UnpackedFloat.sub format y x).abs := by
  cases x with
  | notANumber => cases y <;> rfl
  | infinity s =>
    cases y with
    | infinity s' => cases s <;> cases s' <;> rfl
    | _ => rfl
  | zero s =>
    cases y with
    | zero s' => cases s <;> cases s' <;> rfl
    | _ => rfl
  | finite s m e hm =>
    cases y with
    | finite s' m' e' hm' =>
      delta UnpackedFloat.sub
      dsimp only
      rw [Int.min_comm e' e, ← abs_normalize_neg, Int.neg_sub]
    | _ => rfl

theorem abs_sub_comm (a b : Float) : (a - b).abs = (b - a).abs := by
  have same : (UnpackedFloat.sub .binary64 a.toModel.unpack b.toModel.unpack).abs =
      (UnpackedFloat.sub .binary64 b.toModel.unpack a.toModel.unpack).abs := abs_sub_unpacked _ _
  show Float.ofModel (Float.Model.pack _) = Float.ofModel (Float.Model.pack _)
  refine congrArg Float.ofModel (congrArg Float.Model.pack ?_)
  calc (UnpackedFloat.unpack .binary64 (UnpackedFloat.pack .binary64 _)).abs
    _ = _ := abs_unpack_pack _
    _ = _ := by rw [same]
    _ = _ := (abs_unpack_pack _).symm

end Floating

instance : AbsSubComm Float where
  abs_sub_comm := Floating.abs_sub_comm

end AirTraffic
