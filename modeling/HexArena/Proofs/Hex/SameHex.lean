import HexArena.Board
import HexArena.Proofs.Hex.Metric
import Mathlib.Data.List.Forall2

/-!
# Triples of one hex

Every hex has many triples, and which of them a computation starts from decides
where it overflows.  It decides nothing else: distances, neighbors and what is seen
on a board depend on the hexes alone.

Main results:

- Definition {lit}`Coord.Same`: two triples address one hex.
- Definition {lit}`Coord.OneHex`: and are found to do so.
- Theorems {lit}`Coord.Same.distance` and {lit}`Coord.Same.offset`: distances of
  the same hexes are equal, and equal ways lead to the same hex.
- Definition {lit}`Board.Alike`: the same pieces on the same hexes.
- Theorems {lit}`Board.Alike.occupant` and {lit}`Board.Alike.within`: what is seen
  on such boards is alike.
-/

namespace HexArena

open Checked

/-! ## Coordinates -/

namespace Coord

/-- The two triples address one hex, over unbounded integers. -/
def Same (a b : Coord) : Prop :=
  b.reduced = a.reduced

instance (a b : Coord) : Decidable (a.Same b) :=
  inferInstanceAs (Decidable (b.reduced = a.reduced))

/-- A triple addresses the hex that it addresses. -/
theorem Same.refl (a : Coord) : a.Same a :=
  rfl

/-- Two triples address one hex exactly if two sums of their components are equal. -/
theorem same_iff {a b : Coord} : a.Same b ↔ b.x + b.y = a.x + a.y ∧ b.z + b.y = a.z + a.y := by
  simp [Same, reduced]

/-- The two triples are found to address one hex. -/
def OneHex (a b : Coord) : Prop :=
  a.sameHex b = .ok true

instance (a b : Coord) : Decidable (a.OneHex b) :=
  inferInstanceAs (Decidable (a.sameHex b = .ok true))

/-- Two triples are found to address one hex if they do and both can be reduced. -/
theorem oneHex_iff {a b : Coord} :
    a.OneHex b ↔ a.reduced.Fits ∧ b.reduced.Fits ∧ a.Same b := by
  unfold OneHex
  rw [sameHex_eq_ok]
  simp [Same, eq_comm]

/-- Triples of one hex that fit address it. -/
theorem OneHex.same {a b : Coord} (h : a.OneHex b) : a.Same b :=
  (oneHex_iff.mp h).2.2

namespace Same

variable {a a' b b' : Coord}

/-- Equal ways lead to the same hex. -/
theorem add (h : a.Same b) (way : Coord) : (a + way).Same (b + way) := by
  obtain ⟨hx, hz⟩ := same_iff.mp h
  refine same_iff.mpr ⟨?_, ?_⟩
  · simp only [add_x, add_y]
    omega
  · simp only [add_z, add_y]
    omega

/-- Equal ways from one hex lead to one hex. -/
theorem offset (h : a.Same b) (d : Direction) (steps : Int) :
    Agree Same (a.offset d steps) (b.offset d steps) := by
  intro c c' hc hc'
  rw [offset_eq_ok hc, offset_eq_ok hc']
  exact h.add _

/-- So do single steps. -/
theorem neighbor (h : a.Same b) (d : Direction) : Agree Same (a.neighbor d) (b.neighbor d) := by
  intro c c' hc hc'
  have hstep : c = a + d.unit := checked_eq_ok hc
  have hstep' : c' = b + d.unit := checked_eq_ok hc'
  rw [hstep, hstep']
  exact h.add _

/-- Ways between the same hexes have equally many steps. -/
theorem norm_sub (h : a.Same a') (h' : b.Same b') : (b' - a').norm = (b - a).norm := by
  obtain ⟨hx, hz⟩ := same_iff.mp h
  obtain ⟨hx', hz'⟩ := same_iff.mp h'
  have hxy : b'.x - a'.x + (b'.y - a'.y) = b.x - a.x + (b.y - a.y) := by omega
  have hzy : b'.z - a'.z + (b'.y - a'.y) = b.z - a.z + (b.y - a.y) := by omega
  have hxz : b'.x - a'.x - (b'.z - a'.z) = b.x - a.x - (b.z - a.z) := by omega
  simp only [norm, sub_x, sub_y, sub_z, hxy, hzy, hxz]

/-- Distances do not depend on the triples. -/
theorem distance (h : a.Same a') (h' : b.Same b') :
    Agree Eq (a.distance b) (a'.distance b') := by
  intro n n' hn hn'
  rw [distance_eq_ok hn, distance_eq_ok hn', h.norm_sub h']

/-- Neither does the comparison of hexes. -/
theorem sameHex (h : a.Same a') (h' : b.Same b') : Agree Eq (a.sameHex b) (a'.sameHex b') := by
  intro same same' hsame hsame'
  obtain ⟨-, -, rfl⟩ := sameHex_eq_ok.mp hsame
  obtain ⟨-, -, rfl⟩ := sameHex_eq_ok.mp hsame'
  unfold Same at h h'
  rw [h, h']

end Same

end Coord

/-! ## Pieces -/

/-- The same piece, but for the triple that says where it stands. -/
def Piece.Alike (near : Coord → Coord → Prop) (p p' : Piece) : Prop :=
  ∃ position, near p.position position ∧ p' = { p with position := position }

/-- What does not depend on where a piece stands is read alike. -/
theorem Piece.Alike.reading {near : Coord → Coord → Prop} {p p' : Piece} (h : p.Alike near p')
    {β : Type} (read : Piece → β)
    (hread : ∀ (p : Piece) (position : Coord), read { p with position := position } = read p) :
    read p' = read p := by
  obtain ⟨position, -, rfl⟩ := h
  exact hread p position

/-- The same snapshot, but for the triple that says where the piece stands. -/
def Snapshot.Alike (near : Coord → Coord → Prop) (s s' : Snapshot) : Prop :=
  ∃ position, near s.position position ∧ s' = { s with position := position }

/-- Snapshots that are alike stand on related triples. -/
theorem Snapshot.Alike.position {near : Coord → Coord → Prop} {s s' : Snapshot}
    (h : s.Alike near s') : near s.position s'.position := by
  obtain ⟨position, hnear, rfl⟩ := h
  exact hnear

/-! ## Boards -/

/-- The same board with the same pieces on the same hexes. -/
structure Board.Alike (b b' : Board) : Prop where
  radius : b'.radius = b.radius
  snapshots : List.Forall₂ (Snapshot.Alike Coord.Same) b.snapshots b'.snapshots

namespace Board

variable {b b' : Board} {cell cell' : Coord}

/-- Snapshots that are alike are put in their places alike. -/
theorem alike_place {s s' : Snapshot} {l l' : List Snapshot} (hs : s.Alike Coord.Same s')
    (h : List.Forall₂ (Snapshot.Alike Coord.Same) l l') :
    List.Forall₂ (Snapshot.Alike Coord.Same) (place s l) (place s' l') := by
  induction h with
  | nil => exact .cons hs .nil
  | @cons t t' rest rest' ht hrest ih =>
    have hid : s'.id = s.id := by
      obtain ⟨_, -, rfl⟩ := hs
      rfl
    have hid' : t'.id = t.id := by
      obtain ⟨_, -, rfl⟩ := ht
      rfl
    unfold place
    rw [hid, hid']
    split
    · exact .cons hs (.cons ht hrest)
    · exact .cons ht ih

/-- Boards that are made of the same snapshots are alike. -/
theorem alike_ofSnapshots {l l' : List Snapshot}
    (h : List.Forall₂ (Snapshot.Alike Coord.Same) l l') (radius : Nat) :
    (ofSnapshots radius l).Alike (ofSnapshots radius l') := by
  have hplaced : ∀ {placed placed' : List Snapshot},
      List.Forall₂ (Snapshot.Alike Coord.Same) placed placed' →
      List.Forall₂ (Snapshot.Alike Coord.Same) (l.foldl (fun placed s => place s placed) placed)
        (l'.foldl (fun placed s => place s placed) placed') := by
    induction h with
    | nil => exact fun hplaced => hplaced
    | cons hs _ ih => exact fun hplaced => ih (alike_place hs hplaced)
  exact ⟨rfl, hplaced .nil⟩

/-- The first piece on a hex does not depend on the triples. -/
theorem agree_firstOn {l l' : List Snapshot}
    (h : List.Forall₂ (Snapshot.Alike Coord.Same) l l') (hcell : cell.Same cell') :
    Agree (Option.Rel (Snapshot.Alike Coord.Same)) (firstOn cell l) (firstOn cell' l') := by
  induction h with
  | nil => exact .ok .none
  | cons hs _ ih =>
    unfold firstOn
    refine (hs.position.sameHex hcell).bind_eq fun same => ?_
    cases same with
    | true => exact .ok (.some hs)
    | false => exact ih

/-- The pieces near a hex do not depend on the triples. -/
theorem agree_nearTo {l l' : List Snapshot} (h : List.Forall₂ (Snapshot.Alike Coord.Same) l l')
    {center center' : Coord} (hcenter : center.Same center') (range : Nat) :
    Agree (List.Forall₂ (Snapshot.Alike Coord.Same)) (nearTo center range l)
      (nearTo center' range l') := by
  induction h with
  | nil => exact .ok .nil
  | cons hs _ ih =>
    unfold nearTo
    refine (hcenter.distance hs.position).bind_eq fun steps => ?_
    refine ih.bind fun others others' hothers => .ok ?_
    split
    · exact .cons hs hothers
    · exact hothers

namespace Alike

/-- Boards that are alike contain the same hexes. -/
theorem contains (h : b.Alike b') (hcell : cell.Same cell') :
    Agree Eq (b.contains cell) (b'.contains cell') := by
  unfold Board.contains
  rw [h.radius]
  exact ((Coord.Same.refl _).distance hcell).bind_eq fun _ => .ok rfl

/-- They show the same occupant of a hex. -/
theorem occupant (h : b.Alike b') (hcell : cell.Same cell') :
    Agree (Option.Rel (Snapshot.Alike Coord.Same)) (b.occupant cell) (b'.occupant cell') :=
  agree_firstOn h.snapshots hcell

/-- They show the same pieces in a range. -/
theorem within (h : b.Alike b') {center center' : Coord} (hcenter : center.Same center')
    (range : Nat) :
    Agree (List.Forall₂ (Snapshot.Alike Coord.Same)) (b.within center range)
      (b'.within center' range) :=
  agree_nearTo h.snapshots hcenter range

end Alike

end Board

end HexArena
