import AirTraffic.Proximity.BallTree

/-!
# Ball trees of renamed items

A ball tree looks at its items only to measure them. Where the items get other names and all
distances stay the same, the tree takes the same shape under the new names, finds the same entries
and spends the same number of evaluations.
-/
namespace AirTraffic

open Scalar

instance : LawfulMonad Tally :=
  LawfulMonad.mk' Tally (fun _ => rfl) (fun x f => by simp [bind, pure])
    (fun x f g => by simp [bind, Nat.add_assoc])

variable {α β γ ε : Type}

def Entry.map (f : β → γ) (e : Entry β) : Entry γ := ⟨e.id, f e.item⟩

@[simp] theorem Entry.map_item (f : β → γ) (e : Entry β) : (e.map f).item = f e.item := rfl

def Hit.map (f : β → γ) (hit : Hit α β) : Hit α γ := ⟨hit.entry.map f, hit.distance⟩

def Ball.Half.map (f : β → γ) (half : Half α β) : Half α γ :=
  ⟨half.radius, half.entries.map (Entry.map f)⟩

def Ball.map (f : β → γ) : Ball α β → Ball α γ
  | leaf pivot radius entries => leaf (f pivot) radius (entries.map (Entry.map f))
  | node pivot radius left right => node (f pivot) radius (left.map f) (right.map f)

def BallTree.map (f : β → γ) (t : BallTree α β) : BallTree α γ := ⟨t.root.map (Ball.map f), t.size⟩

theorem Ball.map_pivot (f : β → γ) (ball : Ball α β) : (ball.map f).pivot = f ball.pivot := by
  cases ball <;> rfl

variable {distance : β → β → Except ε α} {distance' : γ → γ → Except ε α} {f : β → γ}
  (h : ∀ a b, distance' (f a) (f b) = distance a b)

include h

theorem Tally.measure_map (a b : β) : measure distance' (f a) (f b) = measure distance a b := by
  rw [measure, h, measure]

variable [Scalar α]

namespace Ball

theorem farthest_map (origin : β) (entries : List (Entry β)) (item : β) (best : Option α) :
    farthest distance' (f origin) (entries.map (Entry.map f)) (f item) best =
      f <$> farthest distance origin entries item best := by
  induction entries generalizing item best with
  | nil => exact (map_pure f item).symm
  | cons e rest ih =>
    simp only [List.map_cons, farthest, Entry.map, Tally.measure_map h, map_bind]
    refine bind_congr fun x => ?_
    split
    · exact ih e.item (some x)
    · exact ih item best

theorem nearer_map (a b item : β) :
    nearer distance' (f a) (f b) (f item) = nearer distance a b item := by
  simp only [nearer, Tally.measure_map h]

theorem divide_map (a b : β) (entries : List (Entry β)) (left right : Half α β) :
    divide distance' (f a) (f b) (entries.map (Entry.map f)) (left.map f) (right.map f) =
      Prod.map (Half.map f) (Half.map f) <$> divide distance a b entries left right := by
  induction entries generalizing left right with
  | nil => simp [divide, Prod.map]
  | cons e rest ih =>
    have added : ∀ (half : Half α β) x, (half.map f).add (e.map f) x = (half.add e x).map f := by
      intro half x
      simp [Half.add, Half.map]
    simp only [List.map_cons, divide, map_bind, Entry.map_item, nearer_map h]
    refine bind_congr fun p => ?_
    obtain ⟨toLeft, x⟩ := p
    simp only [added]
    split
    · exact ih (left.add e x) right
    · exact ih left (right.add e x)

theorem split?_map (entries : List (Entry β)) :
    split? distance' (entries.map (Entry.map f)) =
      Option.map (Prod.map (Ball.map f) (Ball.map f)) <$> split? distance entries := by
  cases entries with
  | nil => exact (map_pure _ none).symm
  | cons first rest =>
    have all : first.map f :: rest.map (Entry.map f) = (first :: rest).map (Entry.map f) := rfl
    have empty : (⟨zero, []⟩ : Half α γ) = Half.map f ⟨zero, []⟩ := rfl
    rw [List.map_cons, split?, split?, all, Entry.map_item, empty, farthest_map h,
      bind_map_left, map_bind]
    refine bind_congr fun a => ?_
    rw [farthest_map h, bind_map_left, map_bind]
    refine bind_congr fun b => ?_
    rw [divide_map h, bind_map_left, map_bind]
    refine bind_congr fun halves => ?_
    obtain ⟨left, right⟩ := halves
    simp only [Prod.map, Half.map, List.isEmpty_map, map_pure]
    split <;> rfl

theorem insertLeaf_map (pivot : β) (radius : α) (entries : List (Entry β)) :
    insertLeaf distance' (f pivot) radius (entries.map (Entry.map f)) =
      Prod.map (Ball.map f) id <$> insertLeaf distance pivot radius entries := by
  unfold insertLeaf
  rw [List.length_map]
  split
  · rfl
  · rw [split?_map h, ExceptT.run_map, bind_map_left, map_bind]
    refine bind_congr fun outcome => ?_
    rcases outcome with e | _ | ⟨left, right⟩
    · rfl
    · rfl
    · rfl

theorem insert_map (new : Entry β) (ball : Ball α β) :
    insert distance' (new.map f) (ball.map f) =
      Prod.map (Ball.map f) id <$> insert distance new ball := by
  induction ball with
  | leaf pivot radius entries =>
    rw [map, insert, insert, Entry.map_item, Tally.measure_map h, map_bind]
    refine bind_congr fun outcome => ?_
    cases outcome with
    | error e => rfl
    | ok x =>
      have added : entries.map (Entry.map f) ++ [new.map f] =
          (entries ++ [new]).map (Entry.map f) := by simp
      simp only [added, insertLeaf_map h]
  | node pivot radius left right ihl ihr =>
    rw [map, insert, insert, Entry.map_item, Tally.measure_map h, map_bind]
    refine bind_congr fun outcome => ?_
    cases outcome with
    | error e => rfl
    | ok x =>
      simp only [map_pivot, nearer_map h, map_bind]
      refine bind_congr fun side => ?_
      rcases side with e | ⟨_ | _, y⟩
      · rfl
      · simp only [ihr, bind_map_left, map_bind]
        rfl
      · simp only [ihl, bind_map_left, map_bind]
        rfl

theorem scan_map (query : β) (range : α) (entries : List (Entry β)) :
    scan distance' (f query) range (entries.map (Entry.map f)) =
      List.map (Hit.map f) <$> scan distance query range entries := by
  induction entries with
  | nil => rfl
  | cons e rest ih =>
    rw [List.map_cons, scan, scan, Entry.map_item, Tally.measure_map h, map_bind]
    refine bind_congr fun x => ?_
    rw [ih, bind_map_left, map_bind]
    refine bind_congr fun hits => ?_
    split <;> rfl

theorem within_map (query : β) (range : α) (keep : Nat → Bool) (ball : Ball α β) :
    within distance' (f query) range keep (ball.map f) =
      List.map (Hit.map f) <$> within distance query range keep ball := by
  induction ball with
  | leaf pivot radius entries =>
    have kept : (entries.map (Entry.map f)).filter (keep ·.id) =
        (entries.filter (keep ·.id)).map (Entry.map f) := List.filter_map
    rw [map, within, within, Tally.measure_map h, map_bind]
    refine bind_congr fun x => ?_
    split
    · rfl
    · rw [kept]
      exact scan_map h query range _
  | node pivot radius left right ihl ihr =>
    rw [map, within, within, Tally.measure_map h, map_bind]
    refine bind_congr fun x => ?_
    split
    · rfl
    · simp only [ihl, ihr, bind_map_left, map_bind, map_pure, List.map_append]

end Ball

namespace BallTree

theorem insert_map (t : BallTree α β) (new : Entry β) :
    (t.map f).insert distance' (new.map f) =
      Prod.map (BallTree.map f) id <$> t.insert distance new := by
  obtain ⟨root, size⟩ := t
  rw [map, insert, insert, Entry.map_item, Tally.measure_map h, map_bind]
  refine bind_congr fun outcome => ?_
  cases outcome with
  | error e => rfl
  | ok x =>
    cases root with
    | none => rfl
    | some ball =>
      simp only [Option.map_some, Ball.insert_map h, bind_map_left, map_bind]
      refine bind_congr fun inserted => ?_
      rcases inserted with ⟨ball, e | _⟩ <;> rfl

theorem within_map (t : BallTree α β) (query : β) (range : α) (keep : Nat → Bool) :
    (t.map f).within distance' (f query) range keep =
      List.map (Hit.map f) <$> t.within distance query range keep := by
  obtain ⟨root, size⟩ := t
  cases root with
  | none => rfl
  | some ball => exact Ball.within_map h query range keep ball

end BallTree
end AirTraffic
