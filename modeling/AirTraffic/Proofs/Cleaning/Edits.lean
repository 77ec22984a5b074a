import Mathlib.Data.List.Forall2
import AirTraffic.Proofs.Cleaning.Chain

/-!
# What working steps do to reports

A working step leaves reports out and edits some aspects of those that stay: position, altitude,
speed and course. Their order, their times and all that says whose they are stay as they were.
-/
namespace AirTraffic

namespace Report

variable {α ρ : Type}

structure Edits (new old : Report α ρ) : Prop where
  time : new.time = old.time
  trackId : new.trackId = old.trackId
  curvature : new.curvature = old.curvature
  alongTrackDistance : new.alongTrackDistance = old.alongTrackDistance
  payload : new.payload = old.payload

inductive Aspect where
  | position
  | altitude
  | speed
  | course
  deriving DecidableEq

/-- Nothing is edited but some of these aspects. -/
structure EditsWithin (touched : List Aspect) (new old : Report α ρ) : Prop
    extends Edits new old where
  position : .position ∉ touched → new.position = old.position
  altitude : .altitude ∉ touched → new.altitude = old.altitude
  speed : .speed ∉ touched → new.speed = old.speed
  course : .course ∉ touched → new.course = old.course

namespace EditsWithin

variable {touched : List Aspect} {r q s : Report α ρ}

protected theorem refl (touched : List Aspect) (r : Report α ρ) : EditsWithin touched r r :=
  ⟨⟨rfl, rfl, rfl, rfl, rfl⟩, fun _ => rfl, fun _ => rfl, fun _ => rfl, fun _ => rfl⟩

protected theorem trans (h : EditsWithin touched r q) (k : EditsWithin touched q s) :
    EditsWithin touched r s where
  time := h.time.trans k.time
  trackId := h.trackId.trans k.trackId
  curvature := h.curvature.trans k.curvature
  alongTrackDistance := h.alongTrackDistance.trans k.alongTrackDistance
  payload := h.payload.trans k.payload
  position hn := (h.position hn).trans (k.position hn)
  altitude hn := (h.altitude hn).trans (k.altitude hn)
  speed hn := (h.speed hn).trans (k.speed hn)
  course hn := (h.course hn).trans (k.course hn)

theorem mono {more : List Aspect} (h : EditsWithin touched r q) (hmore : touched ⊆ more) :
    EditsWithin more r q where
  toEdits := h.toEdits
  position hn := h.position fun ht => hn (hmore ht)
  altitude hn := h.altitude fun ht => hn (hmore ht)
  speed hn := h.speed fun ht => hn (hmore ht)
  course hn := h.course fun ht => hn (hmore ht)

instance : Std.Refl (EditsWithin touched : Report α ρ → Report α ρ → Prop) :=
  ⟨EditsWithin.refl touched⟩

instance : IsTrans (Report α ρ) (EditsWithin touched) := ⟨fun _ _ _ => EditsWithin.trans⟩

end EditsWithin

theorem exists_edited {R : Report α ρ → Report α ρ → Prop} {out reports : List (Report α ρ)}
    (h : List.SublistForall₂ R out reports) {r : Report α ρ} (hr : r ∈ out) :
    ∃ q ∈ reports, R r q := by
  induction h with
  | nil => cases hr
  | @cons r' q _ _ hq _ ih =>
    rcases List.mem_cons.mp hr with rfl | hr
    · exact ⟨q, List.mem_cons_self, hq⟩
    · obtain ⟨s, hs, he⟩ := ih hr
      exact ⟨s, List.mem_cons_of_mem _ hs, he⟩
  | cons_right _ ih =>
    obtain ⟨s, hs, he⟩ := ih hr
    exact ⟨s, List.mem_cons_of_mem _ hs, he⟩

abbrev EditedPart (out reports : List (Report α ρ)) : Prop := List.SublistForall₂ Edits out reports

namespace EditedPart

variable {out reports : List (Report α ρ)}

theorem map_sublist {β : Type} {f : Report α ρ → β} (hf : ∀ r q, r.Edits q → f r = f q)
    (h : EditedPart out reports) : (out.map f).Sublist (reports.map f) := by
  induction h with
  | nil => exact List.nil_sublist _
  | cons hr _ ih =>
    rw [List.map_cons, List.map_cons, hf _ _ hr]
    exact ih.cons_cons _
  | cons_right _ ih => exact ih.trans (List.sublist_cons_self _ _)

theorem times_sublist (h : EditedPart out reports) : (times out).Sublist (times reports) :=
  h.map_sublist fun _ _ he => he.time

end EditedPart

/-- Some of the reports in their order, edited in these aspects at most. -/
abbrev PartWithin (touched : List Aspect) (out reports : List (Report α ρ)) : Prop :=
  List.SublistForall₂ (EditsWithin touched) out reports

namespace PartWithin

variable {touched : List Aspect} {out reports : List (Report α ρ)}

protected theorem refl (touched : List Aspect) (reports : List (Report α ρ)) :
    PartWithin touched reports reports :=
  List.SublistForall₂.is_refl.refl reports

theorem of_sublist (touched : List Aspect) (h : out.Sublist reports) :
    PartWithin touched out reports := h.sublistForall₂

protected theorem trans {more : List (Report α ρ)} (h : PartWithin touched out reports)
    (k : PartWithin touched reports more) : PartWithin touched out more :=
  List.SublistForall₂.is_trans.trans _ _ _ h k

theorem imp {R : Report α ρ → Report α ρ → Prop} (hR : ∀ r q, EditsWithin touched r q → R r q)
    (h : PartWithin touched out reports) : List.SublistForall₂ R out reports := by
  obtain ⟨part, each, hpart⟩ := List.sublistForall₂_iff.mp h
  exact List.sublistForall₂_iff.mpr ⟨part, each.imp hR, hpart⟩

theorem mono {more : List Aspect} (h : PartWithin touched out reports) (hmore : touched ⊆ more) :
    PartWithin more out reports :=
  h.imp fun _ _ he => he.mono hmore

theorem edited (h : PartWithin touched out reports) : EditedPart out reports :=
  h.imp fun _ _ he => he.toEdits

theorem filterMap {f : Report α ρ → Option (Report α ρ)}
    (h : ∀ r q, f r = some q → EditsWithin touched q r) (reports : List (Report α ρ)) :
    PartWithin touched (reports.filterMap f) reports := by
  induction reports with
  | nil => exact .nil
  | cons r reports ih =>
    cases hr : f r with
    | none =>
      rw [List.filterMap_cons_none hr]
      exact ih.cons_right
    | some q =>
      rw [List.filterMap_cons_some hr]
      exact .cons (h r q hr) ih

theorem map {f : Report α ρ → Report α ρ} (h : ∀ r, EditsWithin touched (f r) r)
    (reports : List (Report α ρ)) : PartWithin touched (reports.map f) reports := by
  rw [← List.filterMap_eq_map]
  exact filterMap (fun r q hq => Option.some.inj hq ▸ h r) reports

end PartWithin

theorem thinAfter_sublist (close : Report α ρ → Report α ρ → Bool) (kept : Report α ρ)
    (reports : List (Report α ρ)) : (thinAfter close kept reports).Sublist reports := by
  fun_induction thinAfter close kept reports with
  | case1 => exact List.Sublist.refl _
  | case2 kept r rest _ ih => exact ih.cons r
  | case3 kept r rest _ ih => exact ih.cons_cons r

theorem thin_sublist (close : Report α ρ → Report α ρ → Bool) (reports : List (Report α ρ)) :
    (thin close reports).Sublist reports := by
  cases reports with
  | nil => exact List.Sublist.refl _
  | cons r rest => exact (thinAfter_sublist close r rest).cons_cons r

theorem dropFlagged_sublist (flags : List Bool) (reports : List (Report α ρ)) :
    (dropFlagged flags reports).Sublist reports := by
  fun_induction dropFlagged flags reports with
  | case1 => exact List.Sublist.refl _
  | case2 => exact List.Sublist.refl _
  | case3 flags r reports ih => exact ih.cons r
  | case4 flag flags r reports _ ih => exact ih.cons_cons r

variable [Scalar α]

theorem withAltitude_edits (r : Report α ρ) (altitude : Option α) :
    EditsWithin [.altitude] (r.withAltitude altitude) r where
  toEdits := ⟨rfl, rfl, rfl, rfl, rfl⟩
  position _ := rfl
  altitude hn := absurd (by decide) hn
  speed _ := rfl
  course _ := rfl

theorem withSpeed_edits {touched : List Aspect} (h : .speed ∈ touched) (r : Report α ρ)
    (speed : Option α) : EditsWithin touched (r.withSpeed speed) r where
  toEdits := ⟨rfl, rfl, rfl, rfl, rfl⟩
  position _ := rfl
  altitude _ := rfl
  speed hn := absurd h hn
  course _ := rfl

theorem move_edits (m : Motion α) (r : Report α ρ) :
    EditsWithin [.position, .speed, .course] (MotionFit.move m r) r where
  toEdits := ⟨rfl, rfl, rfl, rfl, rfl⟩
  position hn := absurd (by decide) hn
  altitude _ := rfl
  speed hn := absurd (by decide) hn
  course hn := absurd (by decide) hn

end Report

open Report

variable {α ρ : Type} [Scalar α]

namespace MissingValues

theorem dropZeroAltitude_edits (r : Report α ρ) :
    EditsWithin [.altitude] (dropZeroAltitude r) r := by
  unfold dropZeroAltitude
  split
  · exact withAltitude_edits r none
  · exact .refl _ r

theorem fillAltitudesFrom_edits (before : Option (Int × α)) (reports : List (Report α ρ)) :
    PartWithin [.altitude] (fillAltitudesFrom before reports) reports := by
  fun_induction fillAltitudesFrom before reports with
  | case1 => exact .nil
  | case2 before r rest p _ ih => exact .cons (.refl _ r) ih
  | case3 before r rest _ ih => exact .cons (withAltitude_edits r _) ih

theorem fillSpeedsFrom_edits [Geodesy α] (before : Option (Report α ρ))
    (reports : List (Report α ρ)) :
    PartWithin [.speed] (fillSpeedsFrom before reports) reports := by
  fun_induction fillSpeedsFrom before reports with
  | case1 => exact .nil
  | case2 before r rest ih =>
    refine .cons ?_ ih
    split
    · exact withSpeed_edits (by decide) r _
    · exact .refl _ r

end MissingValues

theorem TrendTest.correctAltitudes_edits (test : TrendTest α) (reports : List (Report α ρ)) :
    PartWithin [.altitude] (test.correctAltitudes reports) reports := by
  have each : List.Forall₂ (EditsWithin [.altitude]) (test.correctAltitudes reports)
      (reports.zipIdx.map Prod.fst) := by
    unfold correctAltitudes
    rw [List.forall₂_map_left_iff, List.forall₂_map_right_iff, List.forall₂_same]
    intro p _
    dsimp only
    split
    · exact withAltitude_edits p.1 _
    · exact .refl _ p.1
  rw [List.zipIdx_map_fst] at each
  exact List.sublistForall₂_iff.mpr ⟨reports, each, List.Sublist.refl _⟩

theorem MotionFit.clean_edits [TableInverse α] (s : MotionFit) {reports out : List (Report α ρ)}
    (h : s.clean reports = some out) : PartWithin [.position, .speed, .course] out reports := by
  unfold clean at h
  split at h
  · obtain rfl := Option.some.inj h
    exact .cons (withSpeed_edits (by decide) _ _) .nil
  · dsimp only at h
    split at h
    · cases h
    · obtain rfl := Option.some.inj h
      refine PartWithin.filterMap ?_ _
      intro r q hq
      obtain ⟨m, -, rfl⟩ := Option.map_eq_some_iff.mp hq
      exact move_edits m r

theorem AltitudeProfile.follow_edits (profile : Polyline α) (r : Report α ρ) :
    EditsWithin [.altitude] (follow profile r) r := by
  unfold follow
  split
  · exact withAltitude_edits r _
  · exact .refl _ r

theorem AltitudeProfile.clean_edits (s : AltitudeProfile α) (reports : List (Report α ρ)) :
    PartWithin [.altitude] (s.clean reports) reports := by
  unfold clean
  split
  · dsimp only
    split
    · exact .refl _ _
    · exact PartWithin.map (follow_edits _) _
  · exact .refl _ _

namespace WorkStep

def touches : WorkStep α → List Aspect
  | dropZeroAltitudes | fillAltitudes | correctAltitudes _ | smoothAltitudes _ => [.altitude]
  | fillSpeeds => [.speed]
  | fitMotion _ => [.position, .speed, .course]
  | _ => []

variable [Geodesy α] [TableInverse α]

theorem apply_within (step : WorkStep α) {reports out : List (Report α ρ)}
    (h : step.apply reports = some out) : PartWithin step.touches out reports := by
  cases step with
  | thinTimes s => exact .of_sublist _ (Option.some.inj h ▸ thin_sublist _ _)
  | thinDistances s => exact .of_sublist _ (Option.some.inj h ▸ thin_sublist _ _)
  | dropZeroAltitudes =>
    exact Option.some.inj h ▸ PartWithin.map MissingValues.dropZeroAltitude_edits _
  | fillAltitudes =>
    obtain ⟨-, h⟩ := Option.ite_none_right_eq_some.mp h
    exact Option.some.inj h ▸ MissingValues.fillAltitudesFrom_edits _ _
  | fillSpeeds =>
    obtain ⟨-, h⟩ := Option.ite_none_left_eq_some.mp h
    exact Option.some.inj h ▸ MissingValues.fillSpeedsFrom_edits _ _
  | correctAltitudes test => exact Option.some.inj h ▸ test.correctAltitudes_edits _
  | dropPositionOutliers test =>
    obtain ⟨-, h⟩ := Option.ite_none_left_eq_some.mp h
    exact .of_sublist _ (Option.some.inj h ▸ dropFlagged_sublist _ _)
  | dropOutageOutliers test =>
    obtain ⟨-, h⟩ := Option.ite_none_left_eq_some.mp h
    exact .of_sublist _ (Option.some.inj h ▸ dropFlagged_sublist _ _)
  | fitMotion s => exact s.clean_edits h
  | smoothAltitudes s => exact Option.some.inj h ▸ s.clean_edits _
  | discard rule =>
    obtain ⟨-, h⟩ := Option.ite_none_left_eq_some.mp h
    exact Option.some.inj h ▸ .refl _ _

theorem apply_edits (step : WorkStep α) {reports out : List (Report α ρ)}
    (h : step.apply reports = some out) : EditedPart out reports :=
  (step.apply_within h).edited

theorem run_within {steps : List (WorkStep α)} {reports out : List (Report α ρ)}
    (h : Chain.through WorkStep.apply steps reports = some out) :
    PartWithin (steps.flatMap touches) out reports := by
  refine Chain.through_keeps (P := fun out => PartWithin (steps.flatMap touches) out reports)
    ?_ (.refl _ reports) h
  intro step hstep x y hx hy
  have all : step.touches ⊆ steps.flatMap touches :=
    fun _ ha => List.mem_flatMap.mpr ⟨step, hstep, ha⟩
  exact ((step.apply_within hy).mono all).trans hx

theorem run_edits {steps : List (WorkStep α)} {reports out : List (Report α ρ)}
    (h : Chain.through WorkStep.apply steps reports = some out) : EditedPart out reports :=
  (run_within h).edited

end WorkStep
end AirTraffic
