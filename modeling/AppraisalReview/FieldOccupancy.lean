import AppraisalReview.PageImaging
import AppraisalReview.Raising

set_option autoImplicit false

/-!
# A field box reported empty is empty

What a page paints lies in the boxes that are tested in its place. Annotations
whose corners are written the other way, forms and projecting caps do not.
-/
namespace AppraisalReview.FieldOccupancy
open Plane PdfOverlay PageImaging Raising

variable {fl : ℝ → ℝ}

theorem least_le (points : List ℝ) {x : ℝ} (h : x ∈ points) : least points ≤ x := by
  cases points with
  | nil => cases h
  | cons first rest =>
    have fold : ∀ (rest : List ℝ) (first : ℝ), rest.foldl min first ≤ first ∧
        ∀ y ∈ rest, rest.foldl min first ≤ y := by
      intro rest
      induction rest with
      | nil => exact fun first => ⟨le_rfl, fun _ h => absurd h List.not_mem_nil⟩
      | cons y rest ih =>
        intro first
        obtain ⟨hstart, hall⟩ := ih (min first y)
        refine ⟨hstart.trans (min_le_left ..), fun z hz => ?_⟩
        obtain rfl | hz := List.mem_cons.mp hz
        · exact hstart.trans (min_le_right ..)
        · exact hall z hz
    obtain rfl | h := List.mem_cons.mp h
    · exact (fold rest x).1
    · exact (fold rest first).2 x h

theorem le_greatest (points : List ℝ) {x : ℝ} (h : x ∈ points) : x ≤ greatest points := by
  cases points with
  | nil => cases h
  | cons first rest =>
    have fold : ∀ (rest : List ℝ) (first : ℝ), first ≤ rest.foldl max first ∧
        ∀ y ∈ rest, y ≤ rest.foldl max first := by
      intro rest
      induction rest with
      | nil => exact fun first => ⟨le_rfl, fun _ h => absurd h List.not_mem_nil⟩
      | cons y rest ih =>
        intro first
        obtain ⟨hstart, hall⟩ := ih (max first y)
        refine ⟨(le_max_left ..).trans hstart, fun z hz => ?_⟩
        obtain rfl | hz := List.mem_cons.mp hz
        · exact (le_max_right ..).trans hstart
        · exact hall z hz
    obtain rfl | h := List.mem_cons.mp h
    · exact (fold rest x).1
    · exact (fold rest first).2 x h

theorem pointsBounds_holds {points : List Point} {p : Point} (h : p ∈ points) :
    (pointsBounds points).Holds p :=
  ⟨⟨least_le _ (List.mem_map_of_mem h), le_greatest _ (List.mem_map_of_mem h)⟩,
    least_le _ (List.mem_map_of_mem h), le_greatest _ (List.mem_map_of_mem h)⟩

theorem intersects {box bounds : BoundingBox} {p : Point} (inside : box.Inside p)
    (holds : bounds.Holds p) : boxesIntersect box bounds := by
  obtain ⟨⟨hx1, hx2⟩, hy1, hy2⟩ := inside
  obtain ⟨⟨bx1, bx2⟩, by1, by2⟩ := holds
  unfold boxesIntersect
  push Not
  exact ⟨by linarith, by linarith, by linarith, by linarith⟩

theorem transformPoint_ok {matrix : Matrix} {p q : Point}
    (h : transformPoint fl matrix p = .ok q) : q = affine matrix p := by
  obtain ⟨_, -, h⟩ := bind_ok.mp h
  exact (pure_ok.mp h).symm

theorem transformPoints_ok {matrix : Matrix} {points images : List Point}
    (h : points.mapM (transformPoint fl matrix) = .ok images) :
    images = points.map (affine matrix) := by
  have images := mapM_ok.mp h
  induction images with
  | nil => rfl
  | cons hp hrest ih => rw [List.map_cons, transformPoint_ok hp, ih (mapM_ok.mpr hrest)]

theorem unitSquareBounds_holds {matrix : Matrix} {bounds : BoundingBox}
    (h : unitSquareBounds fl matrix = .ok bounds) {q : Point} (hq : unitSquare.Holds q) :
    bounds.Holds (affine matrix q) := by
  obtain ⟨corners, hcorners, h⟩ := bind_ok.mp h
  obtain rfl := pure_ok.mp h
  obtain rfl := transformPoints_ok hcorners
  obtain ⟨⟨hx0, hx1⟩, hy0, hy1⟩ := hq
  have corner : ∀ p ∈ [((0 : ℝ), (0 : ℝ)), (1, 0), (0, 1), (1, 1)],
      (pointsBounds ([((0 : ℝ), (0 : ℝ)), (1, 0), (0, 1), (1, 1)].map (affine matrix))).Holds
        (affine matrix p) := fun p hp =>
    pointsBounds_holds (List.mem_map_of_mem hp)
  have low := (corner (0, 0) (by simp)).mix (corner (1, 0) (by simp)) hx0 hx1
  have high := (corner (0, 1) (by simp)).mix (corner (1, 1) (by simp)) hx0 hx1
  have spans : affine matrix q =
      mix q.2 (mix q.1 (affine matrix (0, 0)) (affine matrix (1, 0)))
        (mix q.1 (affine matrix (0, 1)) (affine matrix (1, 1))) := by
    simp only [affine, mix, Prod.ext_iff, Prod.fst_add, Prod.snd_add, Prod.smul_fst,
      Prod.smul_snd, smul_eq_mul]
    constructor <;> ring
  rw [spans]
  exact low.mix high hy0 hy1

noncomputable def penOf (state : GraphicsState) : Pen where
  ctm := affine state.matrix
  width := state.lineWidth
  cap := state.lineCap
  join := state.lineJoin
  miterLimit := state.miterLimit
  dash := state.dashPattern
  phase := state.dashPhase

theorem spread_eq (state : GraphicsState) (v : Point) :
    (penOf state).spread v = state.matrix.linear v := by
  simp [Pen.spread, penOf, affine, Matrix.linear]

theorem affine_compose (left right : Matrix) (p : Point) :
    affine (compose left right) p = affine right (affine left p) := by
  simp only [affine, compose, Prod.mk.injEq]
  constructor <;> ring

theorem multiplyMatrices_ok {left right product : Matrix}
    (h : multiplyMatrices fl left right = .ok product) : product = compose left right := by
  obtain ⟨_, -, h⟩ := bind_ok.mp h
  exact (pure_ok.mp h).symm

theorem maximumLinearScale_bounds {matrix : Matrix} {scale : ℝ}
    (h : maximumLinearScale fl matrix = .ok scale) : 0 < scale ∧
      ∀ v, lengthSq (matrix.linear v) ≤ scale ^ 2 * lengthSq v := by
  obtain ⟨a, b, c, d, e, f⟩ := matrix
  obtain ⟨_, -, h⟩ := bind_ok.mp h
  split at h
  · cases h
  case isFalse positive =>
    have hscale := Except.ok.inj h
    simp only at hscale positive
    have hdisc : 0 ≤ (a * a + b * b + c * c + d * d) * (a * a + b * b + c * c + d * d) -
        4 * (a * d - b * c) * (a * d - b * c) := by
      have factored := mul_nonneg
        (add_nonneg (sq_nonneg (a - d)) (sq_nonneg (b + c)))
        (add_nonneg (sq_nonneg (a + d)) (sq_nonneg (b - c)))
      linear_combination factored
    have hsum : 0 ≤ a * a + b * b + c * c + d * d :=
      add_nonneg (add_nonneg (add_nonneg (mul_self_nonneg a) (mul_self_nonneg b))
        (mul_self_nonneg c)) (mul_self_nonneg d)
    rw [max_eq_right hdisc] at hscale positive
    set root := √((a * a + b * b + c * c + d * d) * (a * a + b * b + c * c + d * d) -
      4 * (a * d - b * c) * (a * d - b * c)) with hroot
    have hroot0 : 0 ≤ root := Real.sqrt_nonneg _
    have hrootSq : root ^ 2 = (a * a + b * b + c * c + d * d) * (a * a + b * b + c * c + d * d) -
        4 * (a * d - b * c) * (a * d - b * c) := Real.sq_sqrt hdisc
    have hscaleSq : scale ^ 2 = (a * a + b * b + c * c + d * d + root) / 2 := by
      rw [← hscale]
      exact Real.sq_sqrt (div_nonneg (add_nonneg hsum hroot0) zero_le_two)
    refine ⟨hscale ▸ not_le.mp positive, linear_lengthSq _ ?_ ?_⟩
    · rw [hscaleSq]
      linear_combination hroot0
    · rw [hscaleSq]
      linear_combination hrootSq / 4

noncomputable def reach (state : GraphicsState) (includeJoins : Bool) : ℝ :=
  half state.lineWidth * if includeJoins ∧ state.lineJoin = miterJoin then state.miterLimit else 1

theorem half_nonneg {width : ℝ} (h : 0 ≤ width) : 0 ≤ half width := by
  unfold half
  linarith

theorem reach_ge {state : GraphicsState} (limit : 1 ≤ state.miterLimit)
    (width : 0 ≤ state.lineWidth) (includeJoins : Bool) :
    half state.lineWidth ≤ reach state includeJoins := by
  have factor : 1 ≤ if includeJoins = true ∧ state.lineJoin = miterJoin then state.miterLimit else 1 := by
    split
    · exact limit
    · exact le_rfl
  exact le_mul_of_one_le_right (half_nonneg width) factor

theorem strokeBounds_ok {points : List Point} {state : GraphicsState} {includeJoins : Bool}
    {bounds : BoundingBox} (h : strokeBounds fl points state includeJoins = .ok bounds) :
    0 < state.lineWidth ∧ ∃ scale, 0 < scale ∧
      (∀ v, lengthSq (state.matrix.linear v) ≤ scale ^ 2 * lengthSq v) ∧
      bounds = (pointsBounds points).grow (scale * reach state includeJoins) := by
  unfold strokeBounds at h
  obtain ⟨width, hwidth, h⟩ := bind_ok.mp h
  unfold effectiveLineWidth at hwidth
  split at hwidth
  · cases hwidth
  case isFalse positive =>
    obtain ⟨scale, hscale, hwidth⟩ := bind_ok.mp hwidth
    obtain ⟨_, -, hwidth⟩ := bind_ok.mp hwidth
    obtain ⟨_, -, h⟩ := bind_ok.mp h
    obtain ⟨hpositive, hbound⟩ := maximumLinearScale_bounds hscale
    refine ⟨not_le.mp positive, scale, hpositive, hbound, ?_⟩
    rw [← Except.ok.inj h, ← Except.ok.inj hwidth, reach, half, half]
    congr 1
    ring

/-- What a stroke reaches from a point that its bounds start from is not inside the box. -/
theorem untouched {box : BoundingBox} {state : GraphicsState} {points : List Point}
    {includeJoins : Bool} (limit : 1 ≤ state.miterLimit)
    (h : strokeTouches fl box state points includeJoins = .ok false) {q u : Point}
    (hq : (pointsBounds points).Holds q) (hu : lengthSq u ≤ reach state includeJoins ^ 2) :
    ¬ box.Inside (q + (penOf state).spread u) := by
  intro inside
  unfold strokeTouches at h
  obtain ⟨bounds, hbounds, h⟩ := bind_ok.mp h
  have apart : ¬ boxesIntersect box bounds := of_decide_eq_false (Except.ok.inj h)
  obtain ⟨hwidth, scale, hscale, hlinear, rfl⟩ := strokeBounds_ok hbounds
  have hreach : 0 ≤ reach state includeJoins :=
    (half_nonneg hwidth.le).trans (reach_ge limit hwidth.le includeJoins)
  have hlength : lengthSq (state.matrix.linear u) ≤ (scale * reach state includeJoins) ^ 2 :=
    calc lengthSq (state.matrix.linear u) ≤ scale ^ 2 * lengthSq u := hlinear u
      _ ≤ scale ^ 2 * reach state includeJoins ^ 2 := mul_le_mul_of_nonneg_left hu (sq_nonneg _)
      _ = (scale * reach state includeJoins) ^ 2 := (mul_pow ..).symm
  obtain ⟨hx, hy⟩ := abs_le_of_lengthSq (mul_nonneg hscale.le hreach) hlength
  rw [spread_eq] at inside
  exact apart (intersects inside (hq.grow hx hy))

theorem lengthSq_smul (k : ℝ) (v : Point) : lengthSq (k • v) = k ^ 2 * lengthSq v := by
  simp only [lengthSq, Prod.smul_fst, Prod.smul_snd, smul_eq_mul]
  ring

theorem lengthSq_normal {side : ℝ} (hside : side = 1 ∨ side = -1) (u : Point) :
    lengthSq (normal side u) = lengthSq u := by
  obtain rfl | rfl := hside <;> simp only [lengthSq, normal] <;> ring

theorem miter_reach {pen : Pen} {n n' w : Point} (miter : pen.Miter n n' w)
    (hn : lengthSq n = 1) (hn' : lengthSq n' = 1) (limit : 1 ≤ pen.miterLimit) :
    lengthSq w ≤ (pen.miterLimit * (half pen.width)) ^ 2 := by
  have inner : (half pen.width) ^ 2 ≤ (pen.miterLimit * (half pen.width)) ^ 2 := by
    rw [mul_pow]
    exact le_mul_of_one_le_left (sq_nonneg _) (one_le_pow₀ limit)
  refine convexHull_min (t := {v | lengthSq v ≤ (pen.miterLimit * (half pen.width)) ^ 2}) ?_
    (disc_convex _) miter.spans
  rintro v (rfl | rfl | rfl | rfl)
  · change lengthSq 0 ≤ _
    simpa [lengthSq] using sq_nonneg _
  · change lengthSq _ ≤ _
    rwa [lengthSq_smul, hn, mul_one]
  · change lengthSq _ ≤ _
    rwa [lengthSq_smul, hn', mul_one]
  · exact miter.limit

/-- Every control of the path is one of the points. -/
def Within (points : List Point) (path : Path) : Prop :=
  ∀ sub ∈ path, sub.start ∈ points ∧ sub.current ∈ points ∧
    ∀ segment ∈ sub.segments, ∀ p ∈ segment.controls, p ∈ points

theorem Within.trace {points : List Point} {path : Path} (h : Within points path) {sub : Subpath}
    (hsub : sub ∈ path) {q : Point} (hq : q ∈ sub.trace) : (pointsBounds points).Holds q := by
  obtain ⟨hstart, -, hsegments⟩ := h sub hsub
  obtain rfl | ⟨segment, hsegment, hq⟩ := hq
  · exact pointsBounds_holds hstart
  · exact Segment.hold (fun p hp => pointsBounds_holds (hsegments segment hsegment p hp)) hq

theorem Within.outline {points : List Point} {path : Path} (h : Within points path) {q : Point}
    (hq : q ∈ PageImaging.outline path) : (pointsBounds points).Holds q := by
  obtain ⟨sub, hsub, hq | hq⟩ := hq
  · exact h.trace hsub hq
  · obtain ⟨hstart, hcurrent, -⟩ := h sub hsub
    refine Segment.hold (fun p hp => pointsBounds_holds ?_) hq
    simp only [Segment.controls, List.mem_cons, List.not_mem_nil, or_false] at hp
    obtain rfl | rfl := hp
    · exact hcurrent
    · exact hstart

def Straight (points : List Point) (path : Path) : Prop :=
  points.length ≤ 2 → ∀ sub ∈ path, ∀ segment ∈ sub.segments, ∃ a b, segment = .line a b

theorem third_point {points : List Point} (short : points.length ≤ 2) {a b c : Point}
    (ha : a ∈ points) (hb : b ∈ points) (hc : c ∈ points) (hab : a ≠ b) (hcb : c ≠ b) : a = c := by
  match points, short with
  | [], _ => cases ha
  | [x], _ =>
    simp only [List.mem_singleton] at ha hb
    exact absurd (ha.trans hb.symm) hab
  | [x, y], _ =>
    simp only [List.mem_cons, List.not_mem_nil, or_false] at ha hb hc
    obtain rfl | rfl := ha <;> obtain rfl | rfl := hb <;> obtain rfl | rfl := hc <;> simp_all

theorem no_joint {points : List Point} {path : Path} (within : Within points path)
    (straight : Straight points path) (short : points.length ≤ 2) {sub : Subpath}
    (hsub : sub ∈ path) {s s' : Segment} (joint : Joint sub s s') {v v' : Point}
    (hv : v ∈ s.arriving) (hv' : v' ∈ s'.leaving) : False := by
  obtain ⟨-, -, hsegments⟩ := within sub hsub
  obtain ⟨a, b, rfl⟩ := straight short sub hsub s joint.first
  obtain ⟨b', c, rfl⟩ := straight short sub hsub s' joint.second
  obtain rfl : b = b' := joint.meets
  have first := hsegments _ joint.first
  have second := hsegments _ joint.second
  simp only [Segment.controls, List.forall_mem_cons] at first second
  have hab : a ≠ b := by
    rintro rfl
    simp [Segment.arriving, Segment.reverse, Segment.leaving] at hv
  have hcb : c ≠ b := by
    rintro rfl
    simp [Segment.leaving] at hv'
  refine joint.onward ?_
  rw [third_point short first.1 first.2.1 second.2.1 hab hcb]
  rfl

def Stroked (state : GraphicsState) (path : Path) (p : Point) : Prop :=
  p ∈ (penOf state).sides path ∨ p ∈ (penOf state).miters path

theorem Stroked.reaches {state : GraphicsState} {path : Path} {p : Point}
    (h : Stroked state path p) (limit : 1 ≤ state.miterLimit) (width : 0 ≤ state.lineWidth)
    (includeJoins : Bool)
    (joins : includeJoins = false → ∀ sub ∈ path, ∀ s s', Joint sub s s' →
      ∀ v ∈ s.arriving, ∀ v' ∈ s'.leaving, False) :
    ∃ sub ∈ path, ∃ q, (q = sub.start ∨ ∃ segment ∈ sub.segments, q ∈ segment.trace) ∧ ∃ u,
      lengthSq u ≤ reach state includeJoins ^ 2 ∧ p = q + (penOf state).spread u := by
  have near := reach_ge limit width includeJoins
  obtain ⟨sub, hsub, q, hq, u, hu, rfl⟩ | ⟨hjoin, sub, hsub, s, s', joint, v, hv, v', hv', u, u',
    side, w, ⟨hu, -⟩, ⟨hu', -⟩, hside, miter, rfl⟩ := h
  · exact ⟨sub, hsub, q, hq, u, hu.trans (pow_le_pow_left₀ (half_nonneg width) near 2), rfl⟩
  · refine ⟨sub, hsub, s.finish, .inr ⟨s, joint.first, 1, zero_le_one, le_rfl, ?_⟩, w, ?_, rfl⟩
    · cases s <;> simp [Segment.finish, Segment.point, mix]
    · cases includeJoins with
      | false => exact (joins rfl sub hsub s s' joint v hv v' hv').elim
      | true =>
        have bound := miter_reach miter ((lengthSq_normal hside u).trans hu)
          ((lengthSq_normal hside u').trans hu') limit
        have hreach : reach state true = state.miterLimit * (half state.lineWidth) := by
          have hjoin' : state.lineJoin = miterJoin := hjoin
          simp [reach, hjoin', mul_comm]
        rw [hreach]
        exact bound

def loneLine (a b : Point) : Subpath := { start := a, current := b, segments := [.line a b] }

def Shaped (points : List Point) (path : Path) : Option PathKind → Prop
  | some .move => ∃ a, points = [a] ∧ path = [{ start := a, current := a }]
  | some .line => ∃ a b, points = [a, b] ∧
      (path = [loneLine a b] ∨ path = [(loneLine a b).close])
  | some .rectangle => ∃ a b c d, points = [a, b, d, c] ∧ path = [rectangle a b c d]
  | _ => True

structure Traced (points : List Point) (kind : Option PathKind) (path : Path) : Prop where
  within : Within points path
  straight : Straight points path
  shaped : Shaped points path kind

theorem Traced.empty : Traced [] none [] := by
  refine ⟨?_, ?_, trivial⟩
  · intro sub hsub
    cases hsub
  · intro _ sub hsub
    cases hsub

theorem Within.nil {path : Path} (h : Within [] path) : path = [] := by
  cases path with
  | nil => rfl
  | cons sub rest => exact absurd (h sub List.mem_cons_self).1 List.not_mem_nil

theorem Within.mono {points more : List Point} {path : Path} (h : Within points path) :
    Within (points ++ more) path := fun sub hsub =>
  ⟨List.mem_append_left _ (h sub hsub).1, List.mem_append_left _ (h sub hsub).2.1,
    fun segment hsegment p hp => List.mem_append_left _ ((h sub hsub).2.2 segment hsegment p hp)⟩

theorem Within.cons {points : List Point} {sub : Subpath} {path : Path} (start : sub.start ∈ points)
    (current : sub.current ∈ points)
    (segments : ∀ segment ∈ sub.segments, ∀ p ∈ segment.controls, p ∈ points)
    (h : Within points path) : Within points (sub :: path) := by
  intro other hother
  obtain rfl | hother := List.mem_cons.mp hother
  · exact ⟨start, current, segments⟩
  · exact h other hother

theorem Within.tail {points : List Point} {sub : Subpath} {path : Path}
    (h : Within points (sub :: path)) : Within points path :=
  fun other hother => h other (List.mem_cons_of_mem _ hother)

/-- A drawn segment starts at a point of the path and has its other controls from the operands. -/
theorem Within.draw {points more : List Point} {path : Path} (h : Within points path)
    {segment : Point → Segment}
    (controls : ∀ current, ∀ p ∈ (segment current).controls, p = current ∨ p ∈ more) :
    Within (points ++ more) (draw segment path) := by
  cases path with
  | nil => exact fun sub hsub => absurd hsub List.not_mem_nil
  | cons sub rest =>
    obtain ⟨hstart, hcurrent, hsegments⟩ := h sub List.mem_cons_self
    have drawn : ∀ p ∈ (segment sub.current).controls, p ∈ points ++ more := by
      intro p hp
      obtain rfl | hp := controls _ p hp
      · exact List.mem_append_left _ hcurrent
      · exact List.mem_append_right _ hp
    have hfinish := drawn _ (segment sub.current).finish_mem
    simp only [PageImaging.draw]
    split
    · refine Within.cons (List.mem_append_left _ hstart) hfinish (fun s hs => ?_) h.mono
      rw [List.mem_singleton.mp hs]
      exact drawn
    · refine Within.cons (List.mem_append_left _ hstart) hfinish (fun s hs => ?_) h.tail.mono
      obtain hs | hs := List.mem_append.mp hs
      · exact fun p hp => List.mem_append_left _ (hsegments s hs p hp)
      · rw [List.mem_singleton.mp hs]
        exact drawn

theorem Subpath.close_close (sub : Subpath) : sub.close.close = sub.close := by
  unfold Subpath.close
  split
  · rfl
  · simp

theorem Subpath.close_segments {sub : Subpath} {segment : Segment}
    (h : segment ∈ sub.close.segments) :
    segment ∈ sub.segments ∨ segment = .line sub.current sub.start := by
  unfold Subpath.close at h
  split at h
  · exact .inl h
  · simp only at h
    split at h
    · exact .inl h
    · simpa using h

theorem Subpath.close_points (sub : Subpath) : sub.close.start = sub.start ∧
    (sub.close.current = sub.current ∨ sub.close.current = sub.start) := by
  unfold Subpath.close
  split
  · exact ⟨rfl, .inl rfl⟩
  · exact ⟨rfl, .inr rfl⟩

theorem Traced.close {points : List Point} {kind : Option PathKind} {path : Path}
    (h : Traced points kind path) : Traced points kind (closeLast path) := by
  cases path with
  | nil => exact h
  | cons sub rest =>
    obtain ⟨hstart, hcurrent, hsegments⟩ := h.within sub List.mem_cons_self
    obtain ⟨closeStart, closeCurrent⟩ := Subpath.close_points sub
    refine ⟨Within.cons (closeStart ▸ hstart) ?_ (fun segment hsegment => ?_) h.within.tail,
      fun short other hother segment hsegment => ?_, ?_⟩
    · obtain hc | hc := closeCurrent <;> rw [hc]
      · exact hcurrent
      · exact hstart
    · obtain hold | rfl := Subpath.close_segments hsegment
      · exact hsegments segment hold
      · intro p hp
        simp only [Segment.controls, List.mem_cons, List.not_mem_nil, or_false] at hp
        obtain rfl | rfl := hp
        · exact hcurrent
        · exact hstart
    · obtain rfl | hother := List.mem_cons.mp hother
      · obtain hold | rfl := Subpath.close_segments hsegment
        · exact h.straight short sub List.mem_cons_self segment hold
        · exact ⟨_, _, rfl⟩
      · exact h.straight short other (List.mem_cons_of_mem _ hother) segment hsegment
    · have shaped := h.shaped
      cases kind with
      | none => trivial
      | some kind =>
        cases kind with
        | move =>
          obtain ⟨a, hpoints, hpath⟩ := shaped
          obtain ⟨rfl, rfl⟩ := List.cons.inj hpath
          exact ⟨a, hpoints, rfl⟩
        | line =>
          obtain ⟨a, b, hpoints, hpath | hpath⟩ := shaped
          · obtain ⟨rfl, rfl⟩ := List.cons.inj hpath
            exact ⟨a, b, hpoints, .inr rfl⟩
          · obtain ⟨rfl, rfl⟩ := List.cons.inj hpath
            exact ⟨a, b, hpoints, .inr (congrArg (fun sub => [sub]) (Subpath.close_close _))⟩
        | rectangle =>
          obtain ⟨a, b, c, d, hpoints, hpath⟩ := shaped
          obtain ⟨rfl, rfl⟩ := List.cons.inj hpath
          exact ⟨a, b, c, d, hpoints, rfl⟩
        | other => trivial

theorem Traced.move {points : List Point} {kind : Option PathKind} {path : Path}
    (h : Traced points kind path) (p : Point) :
    Traced (points ++ [p]) (some (if points = [] then .move else .other))
      ({ start := p, current := p } :: path) := by
  refine ⟨Within.cons (by simp) (by simp) (fun _ hs => absurd hs List.not_mem_nil) h.within.mono,
    fun short sub hsub segment hsegment => ?_, ?_⟩
  · obtain rfl | hsub := List.mem_cons.mp hsub
    · cases hsegment
    · exact h.straight (by simp only [List.length_append] at short; omega) sub hsub segment hsegment
  · split
    case isTrue hpoints =>
      subst hpoints
      rw [h.within.nil]
      exact ⟨p, rfl, rfl⟩
    case isFalse => trivial

theorem Traced.line {points : List Point} {kind : Option PathKind} {path : Path}
    (h : Traced points kind path) (p : Point) :
    Traced (points ++ [p])
      (some (if kind = some .move ∧ points.length = 1 then .line else .other))
      (draw (fun current => .line current p) path) := by
  refine ⟨h.within.draw fun current q hq => ?_, fun short sub hsub segment hsegment => ?_, ?_⟩
  · simpa [Segment.controls] using hq
  · have straight := h.straight (by simp only [List.length_append] at short; omega)
    cases path with
    | nil => cases hsub
    | cons first rest =>
      simp only [draw] at hsub
      split at hsub
      · obtain rfl | hsub := List.mem_cons.mp hsub
        · exact ⟨_, _, List.mem_singleton.mp hsegment⟩
        · exact straight sub hsub segment hsegment
      · obtain rfl | hsub := List.mem_cons.mp hsub
        · obtain hold | hnew := List.mem_append.mp hsegment
          · exact straight first List.mem_cons_self segment hold
          · exact ⟨_, _, List.mem_singleton.mp hnew⟩
        · exact straight sub (List.mem_cons_of_mem _ hsub) segment hsegment
  · split
    case isTrue hmove =>
      obtain ⟨rfl, -⟩ := hmove
      obtain ⟨a, rfl, rfl⟩ := h.shaped
      exact ⟨a, p, rfl, .inl rfl⟩
    case isFalse => trivial

theorem Traced.curve {points more : List Point} {kind : Option PathKind} {path : Path}
    (h : Traced points kind path) {segment : Point → Segment}
    (controls : ∀ current, ∀ p ∈ (segment current).controls, p = current ∨ p ∈ more)
    (long : 2 ≤ more.length) : Traced (points ++ more) (some .other) (draw segment path) := by
  refine ⟨h.within.draw controls, fun short sub hsub => ?_, trivial⟩
  rw [List.length_append] at short
  obtain rfl : points = [] := List.length_eq_zero_iff.mp (by omega)
  rw [h.within.nil] at hsub
  cases hsub

theorem Traced.rectangle {points : List Point} {kind : Option PathKind} {path : Path}
    (h : Traced points kind path) (a b c d : Point) :
    Traced (points ++ [a, b, d, c]) (some (if points = [] then .rectangle else .other))
      (PageImaging.rectangle a b c d :: path) := by
  refine ⟨Within.cons (by simp [PageImaging.rectangle]) (by simp [PageImaging.rectangle])
    (fun segment hsegment p hp => ?_) h.within.mono, fun short => ?_, ?_⟩
  · simp only [PageImaging.rectangle, List.mem_cons, List.not_mem_nil, or_false] at hsegment
    obtain rfl | rfl | rfl | rfl := hsegment <;>
      simp only [Segment.controls, List.mem_cons, List.not_mem_nil, or_false] at hp <;>
      obtain rfl | rfl := hp <;> simp
  · simp only [List.length_append, List.length_cons] at short
    omega
  · split
    case isTrue hpoints =>
      subst hpoints
      rw [h.within.nil]
      exact ⟨a, b, c, d, rfl, rfl⟩
    case isFalse => trivial

/-- What the tests do not bound: projecting caps, forms that leave the unit square, and corners
the other way round. -/
def Overlooked (p : Point) : Mark → Prop
  | .stroked path pen => p ∈ pen.projectingCaps path
  | .form _ bbox matrix =>
    ∃ q, (BoundingBox.normalize bbox).Holds q ∧ ¬ unitSquare.Holds (affine matrix q)
  | .annotated rect => rect.x2 < rect.x1 ∨ rect.y2 < rect.y1
  | _ => False

/-- A stroke that the code lets pass as a border of the box. -/
def AllowedBorder (fl : ℝ → ℝ) (box : BoundingBox) : Mark → Prop
  | .stroked path pen => ∃ state points kind, pen = penOf state ∧ Shaped points path kind ∧
      isAllowedTableBorder fl points box state kind = .ok true
  | _ => False

/-- Nothing but borders and what is overlooked reaches inside the box. -/
def Accounted (fl : ℝ → ℝ) (box : BoundingBox) (marks : List Mark) : Prop :=
  ∀ mark ∈ marks, ∀ p, box.Inside p → mark.Covers p → AllowedBorder fl box mark ∨ Overlooked p mark

theorem Accounted.nil (box : BoundingBox) : Accounted fl box [] :=
  fun _ h => absurd h List.not_mem_nil

theorem Accounted.append {box : BoundingBox} {marks more : List Mark} (h : Accounted fl box marks)
    (h' : Accounted fl box more) : Accounted fl box (marks ++ more) := by
  intro mark hmark
  obtain hmark | hmark := List.mem_append.mp hmark
  · exact h mark hmark
  · exact h' mark hmark

theorem touches_width {box : BoundingBox} {state : GraphicsState} {points : List Point}
    {includeJoins b : Bool} (h : strokeTouches fl box state points includeJoins = .ok b) :
    0 < state.lineWidth := by
  unfold strokeTouches at h
  obtain ⟨bounds, hbounds, -⟩ := bind_ok.mp h
  exact (strokeBounds_ok hbounds).1

theorem rectangle_edge {a b c d : Point} {segment : Segment}
    (h : segment ∈ (rectangle a b c d).segments) :
    ∃ edge ∈ [[a, b], [b, c], [c, d], [d, a]], ∀ p ∈ segment.controls, p ∈ edge := by
  simp only [rectangle, List.mem_cons, List.not_mem_nil, or_false] at h
  obtain rfl | rfl | rfl | rfl := h
  · exact ⟨[a, b], by simp, fun _ => id⟩
  · exact ⟨[b, c], by simp, fun _ => id⟩
  · exact ⟨[c, d], by simp, fun _ => id⟩
  · exact ⟨[d, a], by simp, fun _ => id⟩

theorem stroke_apart {box : BoundingBox} {state : GraphicsState} {points : List Point}
    {kind : Option PathKind} {path : Path} (limit : 1 ≤ state.miterLimit)
    (traced : Traced points kind path)
    (h : strokeIntersectsBox fl box points state (kind = some .rectangle) = .ok false) {p : Point}
    (hp : Stroked state path p) : ¬ box.Inside p := by
  by_cases hkind : kind = some .rectangle
  case neg =>
    have htouches : strokeTouches fl box state points (2 < points.length) = .ok false := by
      simpa only [strokeIntersectsBox, hkind, decide_false] using h
    obtain ⟨sub, hsub, q, hq, u, hu, rfl⟩ := hp.reaches limit (touches_width htouches).le
      (2 < points.length) fun short sub hsub s s' joint v hv v' hv' =>
        no_joint traced.within traced.straight (not_lt.mp (of_decide_eq_false short)) hsub joint
          hv hv'
    exact untouched limit htouches (traced.within.trace hsub hq) hu
  case pos =>
    subst hkind
    obtain ⟨a, b, c, d, rfl, rfl⟩ := traced.shaped
    have edges : ∀ edge ∈ [[a, b], [b, c], [c, d], [d, a]],
        strokeTouches fl box state edge true = .ok false := by
      refine anyM_false ?_
      simpa only [strokeIntersectsBox, decide_true] using h
    obtain ⟨sub, hsub, q, hq, u, hu, rfl⟩ := hp.reaches limit
      (touches_width (edges [a, b] (by simp))).le true (fun h => by cases h)
    obtain rfl := List.mem_singleton.mp hsub
    obtain hstart | ⟨segment, hsegment, hq⟩ := hq
    · have hq : q ∈ [a, b] := hstart ▸ List.mem_cons_self
      exact untouched limit (edges [a, b] (by simp)) (pointsBounds_holds hq) hu
    · obtain ⟨edge, hedge, hcontrols⟩ := rectangle_edge hsegment
      exact untouched limit (edges edge hedge)
        (Segment.hold (fun p hp => pointsBounds_holds (hcontrols p hp)) hq) hu

theorem filled_apart {box : BoundingBox} {points : List Point} {path : Path}
    (within : Within points path) (h : ¬ boxesIntersect box (pointsBounds points)) {p : Point}
    (hp : (Mark.filled path).Covers p) : ¬ box.Inside p := fun inside =>
  h (intersects inside (BoundingBox.enclosed (fun _ => within.outline) hp))

theorem paint_accounted {box : BoundingBox} {canvas : Canvas} {scan : Scan}
    (pen : canvas.pen = penOf scan.state) (limit : 1 ≤ scan.state.miterLimit)
    (traced : Traced scan.points scan.kind canvas.path) {painting : PathPainting}
    (h : paintPath fl box scan painting = .ok false) : Accounted fl box (canvas.paint painting) := by
  obtain ⟨path, hpath, traced⟩ : ∃ path,
      path = (if closes painting then closeLast canvas.path else canvas.path) ∧
      Traced scan.points scan.kind path := by
    refine ⟨_, rfl, ?_⟩
    split
    · exact traced.close
    · exact traced
  have stroked : strokeIntersectsBox fl box scan.points scan.state (scan.kind = some .rectangle) =
      .ok false → ∀ p, box.Inside p → (Mark.stroked path canvas.pen).Covers p →
        Overlooked p (.stroked path canvas.pen) := by
    rintro happart p inside (hp | hp | hp)
    · exact absurd inside (stroke_apart limit traced happart (.inl (pen ▸ hp)))
    · exact absurd inside (stroke_apart limit traced happart (.inr (pen ▸ hp)))
    · exact hp
  unfold Canvas.paint
  simp only [← hpath]
  unfold paintPath at h
  simp only at h
  split at h
  case isTrue fills =>
    split at h
    · cases h
    split at h
    · cases h
    case isFalse apart =>
      refine Accounted.append ?_ ?_
      · rw [if_pos fills]
        intro mark hmark p inside hp
        obtain rfl := List.mem_singleton.mp hmark
        exact absurd inside (filled_apart traced.within apart hp)
      · split
        case isTrue strokes =>
          rw [if_pos strokes] at h
          intro mark hmark p inside hp
          obtain rfl := List.mem_singleton.mp hmark
          exact .inr (stroked h p inside hp)
        case isFalse => exact .nil box
  case isFalse fills =>
    rw [if_neg fills, List.nil_append]
    split at h
    · cases h
    obtain ⟨allowed, hallowed, h⟩ := bind_ok.mp h
    split
    case isFalse => exact .nil box
    case isTrue =>
      intro mark hmark p inside hp
      obtain rfl := List.mem_singleton.mp hmark
      cases allowed with
      | true => exact .inl ⟨scan.state, scan.points, scan.kind, pen, traced.shaped, hallowed⟩
      | false => exact .inr (stroked h p inside hp)

structure Follows (canvas : Canvas) (scan : Scan) : Prop where
  pen : canvas.pen = penOf scan.state
  stack : canvas.stack = scan.stack.map penOf
  limits : ∀ state ∈ scan.state :: scan.stack, 1 ≤ state.miterLimit
  traced : Traced scan.points scan.kind canvas.path

theorem Follows.limit {canvas : Canvas} {scan : Scan} (h : Follows canvas scan) :
    1 ≤ scan.state.miterLimit := h.limits _ List.mem_cons_self

theorem Follows.start : Follows {} {} where
  pen := by
    have identity : affine ⟨1, 0, 0, 1, 0, 0⟩ = id := by
      funext p
      simp [affine]
    simp only [penOf, identity]
  stack := rfl
  limits state hstate := by
    obtain rfl := List.mem_singleton.mp hstate
    norm_num [defaultMiterLimit]
  traced := Traced.empty

theorem Follows.withState {canvas : Canvas} {scan : Scan} (h : Follows canvas scan)
    {state : GraphicsState} (limit : 1 ≤ state.miterLimit) :
    Follows (canvas.withPen (penOf state)) (scan.withState state) where
  pen := rfl
  stack := h.stack
  limits other hother := by
    obtain rfl | hother := List.mem_cons.mp hother
    · exact limit
    · exact h.limits other (List.mem_cons_of_mem _ hother)
  traced := h.traced

theorem Follows.withPath {canvas : Canvas} {scan : Scan} (h : Follows canvas scan)
    {path : Path} {points : List Point} {kind : Option PathKind}
    (traced : Traced points kind path) :
    Follows { canvas with path := path } { scan with points := points, kind := kind } :=
  ⟨h.pen, h.stack, h.limits, traced⟩

theorem withLineWidth_ok {state state' : GraphicsState} {operands : List Operand}
    (h : withLineWidth state operands = .ok state') : ∃ value,
      singleFiniteNumber operands = .ok value ∧ state' = { state with lineWidth := value } := by
  unfold withLineWidth at h
  obtain ⟨value, hvalue, h⟩ := bind_ok.mp h
  split at h
  · cases h
  · exact ⟨value, hvalue, (Except.ok.inj h).symm⟩

theorem withMiterLimit_ok {state state' : GraphicsState} {operands : List Operand}
    (h : withMiterLimit state operands = .ok state') : ∃ value,
      singleFiniteNumber operands = .ok value ∧ 1 ≤ value ∧
        state' = { state with miterLimit := value } := by
  unfold withMiterLimit at h
  obtain ⟨value, hvalue, h⟩ := bind_ok.mp h
  split at h
  · cases h
  case isFalse large => exact ⟨value, hvalue, not_lt.mp large, (Except.ok.inj h).symm⟩

theorem withDashPattern_ok {state state' : GraphicsState} {operands : List Operand}
    (h : withDashPattern fl state operands = .ok state') : ∃ pattern phase,
      dashNumbers operands = some (pattern, phase) ∧
        state' = { state with dashPattern := pattern, dashPhase := phase } := by
  unfold withDashPattern at h
  split at h
  · cases h
  case h_2 pattern phase hdash =>
    split at h
    · cases h
    · exact ⟨pattern, phase, hdash, (Except.ok.inj h).symm⟩

theorem singlePdfInteger_ok {operands : List Operand} {style : Fin 3}
    (h : singlePdfInteger fl operands = .ok style) : readStyle operands = .ok style := by
  obtain ⟨value, hvalue, h⟩ := bind_ok.mp h
  split at h
  · exact bind_ok.mpr ⟨value, hvalue, h⟩
  · cases h

def Sets {α : Type} (update : GraphicsState → α → Except String GraphicsState)
    (read : α → Except String (Pen → Pen)) : Prop :=
  ∀ state state' x, 1 ≤ state.miterLimit → update state x = .ok state' →
    (∃ set, read x = .ok set ∧ set (penOf state) = penOf state') ∧ 1 ≤ state'.miterLimit

theorem Sets.optionally {α : Type} {update : GraphicsState → α → Except String GraphicsState}
    {read : α → Except String (Pen → Pen)} (sets : Sets update read)
    {state state' : GraphicsState} {parameter : Option α} (limit : 1 ≤ state.miterLimit)
    (h : PdfOverlay.optionally update state parameter = .ok state') :
    setOptional read parameter (penOf state) = penOf state' ∧ 1 ≤ state'.miterLimit := by
  cases parameter with
  | none =>
    obtain rfl := Except.ok.inj h
    exact ⟨rfl, limit⟩
  | some x =>
    obtain ⟨⟨set, hread, hset⟩, limit'⟩ := sets state state' x limit h
    refine ⟨?_, limit'⟩
    simp only [setOptional, Option.map_some, hread]
    exact hset

theorem sets_width : Sets (fun state x => withLineWidth state [x])
    (fun x => (singleFiniteNumber [x]).map fun value pen => setWidth pen value) := by
  intro state state' x limit h
  obtain ⟨value, hvalue, rfl⟩ := withLineWidth_ok h
  exact ⟨⟨_, map_ok.mpr ⟨_, hvalue, rfl⟩, rfl⟩, limit⟩

theorem sets_cap : Sets
    (fun state x => do return { state with lineCap := ← singlePdfInteger fl [x] })
    (fun x => (readStyle [x]).map fun value pen => setCap pen value) := by
  intro state state' x limit h
  obtain ⟨value, hvalue, h⟩ := bind_ok.mp h
  obtain rfl := Except.ok.inj h
  exact ⟨⟨_, map_ok.mpr ⟨_, singlePdfInteger_ok hvalue, rfl⟩, rfl⟩, limit⟩

theorem sets_join : Sets
    (fun state x => do return { state with lineJoin := ← singlePdfInteger fl [x] })
    (fun x => (readStyle [x]).map fun value pen => setJoin pen value) := by
  intro state state' x limit h
  obtain ⟨value, hvalue, h⟩ := bind_ok.mp h
  obtain rfl := Except.ok.inj h
  exact ⟨⟨_, map_ok.mpr ⟨_, singlePdfInteger_ok hvalue, rfl⟩, rfl⟩, limit⟩

theorem sets_miterLimit : Sets (fun state x => withMiterLimit state [x])
    (fun x => (singleFiniteNumber [x]).map fun value pen => setMiterLimit pen value) := by
  intro state state' x limit h
  obtain ⟨value, hvalue, large, rfl⟩ := withMiterLimit_ok h
  exact ⟨⟨_, map_ok.mpr ⟨_, hvalue, rfl⟩, rfl⟩, large⟩

theorem sets_dash : Sets (withDashPattern fl) readDash := by
  intro state state' x limit h
  obtain ⟨pattern, phase, hdash, rfl⟩ := withDashPattern_ok h
  refine ⟨⟨fun pen => { pen with dash := pattern, phase := phase }, ?_, rfl⟩, limit⟩
  simp only [readDash, hdash]

theorem extended_sets : Sets (fun state parameters => withExtendedGraphicsState fl state parameters)
    (fun parameters => .ok fun pen => pen.extended parameters) := by
  intro state state' parameters limit h
  cases parameters with
  | none => cases h
  | some parameters =>
    unfold withExtendedGraphicsState at h
    obtain ⟨first, hwidth, h⟩ := bind_ok.mp h
    obtain ⟨second, hcap, h⟩ := bind_ok.mp h
    obtain ⟨third, hjoin, h⟩ := bind_ok.mp h
    obtain ⟨fourth, hmiter, h⟩ := bind_ok.mp h
    obtain ⟨fifth, hdash, h⟩ := bind_ok.mp h
    obtain ⟨pen1, limit⟩ := sets_width.optionally limit hwidth
    obtain ⟨pen2, limit⟩ := sets_cap.optionally limit hcap
    obtain ⟨pen3, limit⟩ := sets_join.optionally limit hjoin
    obtain ⟨pen4, limit⟩ := sets_miterLimit.optionally limit hmiter
    obtain ⟨pen5, limit⟩ := sets_dash.optionally limit hdash
    have same : state' = fifth := by
      split at h
      · exact (Except.ok.inj h).symm
      · exact (Except.ok.inj h).symm
      · cases h
    subst same
    refine ⟨⟨_, rfl, ?_⟩, limit⟩
    simp only [Pen.extended, pen1, pen2, pen3, pen4, pen5]

theorem numbers_length {operands : List Operand} {expected : ℕ} {message : String}
    {values : List ℝ} (h : numbers operands expected message = .ok values) :
    values.length = expected := by
  unfold numbers at h
  split at h
  · cases h
  · split at h
    case isTrue hlength => exact Except.ok.inj h ▸ hlength
    case isFalse => cases h

theorem pairUp_length (n : ℕ) {values : List ℝ} (h : values.length = n * 2) :
    (pairUp values).length = n := by
  induction n generalizing values with
  | zero =>
    obtain rfl := List.length_eq_zero_iff.mp (h.trans (Nat.zero_mul 2))
    rfl
  | succ n ih =>
    match values, h with
    | [], h => simp only [List.length_nil] at h; omega
    | [_], h => simp only [List.length_cons, List.length_nil] at h; omega
    | x :: y :: rest, h =>
      simp only [List.length_cons] at h
      simp only [pairUp, List.length_cons, @ih rest (by omega)]

theorem pathPoints_ok {operands : List Operand} {state : GraphicsState} {pairs : ℕ}
    {points : List Point} (h : pathPoints fl operands state.matrix pairs = .ok points) :
    (penOf state).points operands pairs = .ok points ∧ points.length = pairs := by
  unfold pathPoints at h
  obtain ⟨values, hvalues, h⟩ := bind_ok.mp h
  obtain rfl := transformPoints_ok h
  refine ⟨?_, ?_⟩
  · simp only [Pen.points, hvalues]
    rfl
  · rw [List.length_map, pairUp_length pairs (numbers_length hvalues)]

theorem rectanglePoints_ok {operands : List Operand} {state : GraphicsState} {points : List Point}
    (h : rectanglePoints fl operands state.matrix = .ok points) : ∃ a b c d,
      (penOf state).corners operands = .ok [a, b, c, d] ∧ points = [a, b, d, c] := by
  unfold rectanglePoints at h
  obtain ⟨values, hvalues, h⟩ := bind_ok.mp h
  split at h
  case h_1 x y width height =>
    obtain ⟨_, -, h⟩ := bind_ok.mp h
    obtain rfl := transformPoints_ok h
    refine ⟨_, _, _, _, ?_, rfl⟩
    simp only [Pen.corners, hvalues]
    rfl
  case h_2 => cases h

def Stays (fl : ℝ → ℝ) (box : BoundingBox) (after : Canvas × List Mark) (scan : Scan) : Prop :=
  Follows after.1 scan ∧ Accounted fl box after.2

section
variable {box : BoundingBox} {canvas : Canvas} {scan scan' : Scan} (follows : Follows canvas scan)
include follows

theorem stays_save : Stays fl box (canvas.perform .q) { scan with stack := scan.state :: scan.stack } := by
  refine ⟨⟨follows.pen, ?_, fun state hstate => ?_, follows.traced⟩, .nil box⟩
  · simp only [Canvas.perform, follows.pen, follows.stack, List.map_cons]
  · obtain rfl | hstate := List.mem_cons.mp hstate
    · exact follows.limit
    · exact follows.limits state hstate

theorem stays_restore (h : visit fl box scan .Q = .ok (some scan')) :
    Stays fl box (canvas.perform .Q) scan' := by
  simp only [visit] at h
  have stack := follows.stack
  cases hstack : scan.stack with
  | nil =>
    rw [hstack] at h
    cases h
  | cons state rest =>
    rw [hstack] at h stack
    obtain rfl := Option.some.inj (Except.ok.inj h)
    simp only [Canvas.perform, stack, List.map_cons]
    exact ⟨⟨rfl, rfl, fun other hother => follows.limits other
      (List.mem_cons_of_mem _ (hstack ▸ hother)), follows.traced⟩, .nil box⟩

theorem stays_concat {operands : List Operand}
    (h : visit fl box scan (.cm operands) = .ok (some scan')) :
    Stays fl box (canvas.perform (.cm operands)) scan' := by
  obtain ⟨values, hvalues, h⟩ := bind_ok.mp h
  split at h
  case h_1 a b c d e f =>
    obtain ⟨product, hproduct, h⟩ := bind_ok.mp h
    obtain rfl := multiplyMatrices_ok hproduct
    obtain rfl := Option.some.inj (Except.ok.inj h)
    have next := @Follows.withState _ _ follows { scan.state with
      matrix := compose ⟨a, b, c, d, e, f⟩ scan.state.matrix } follows.limit
    refine ⟨?_, .nil box⟩
    convert next using 1
    simp only [Canvas.perform, readMatrix, hvalues, Canvas.adjust, follows.pen]
    congr 1
    simp only [penOf, Pen.mk.injEq, and_true]
    funext p
    exact (affine_compose ..).symm
  case h_2 => cases h

theorem stays_adjust {α : Type} {value : Except String α} {set : Pen → α → Pen} {a : α}
    {state : GraphicsState} (hvalue : value = .ok a) (hset : set (penOf scan.state) a = penOf state)
    (limit : 1 ≤ state.miterLimit) :
    Stays fl box (canvas.adjust value set, []) (scan.withState state) := by
  rw [hvalue, Canvas.adjust, follows.pen, hset]
  exact ⟨follows.withState limit, .nil box⟩

theorem stays_draw {operands : List Operand} {pairs : ℕ} {points : List Point} {kind : PathKind}
    {extend : List Point → Path → Path}
    (hpoints : pathPoints fl operands scan.state.matrix pairs = .ok points)
    (traced : Traced (scan.points ++ points) (some kind) (extend points canvas.path)) :
    Stays fl box (canvas.draws (canvas.pen.points operands pairs) extend, [])
      (scan.extend points kind) := by
  rw [follows.pen, (pathPoints_ok hpoints).1]
  exact ⟨follows.withPath traced, .nil box⟩

theorem stays_path {path : Path} {points : List Point} {kind : Option PathKind}
    (traced : Traced points kind path) :
    Stays fl box ({ canvas with path := path }, []) { scan with points := points, kind := kind } :=
  ⟨follows.withPath traced, .nil box⟩

theorem image_accounted {bounds : BoundingBox}
    (hbounds : unitSquareBounds fl scan.state.matrix = .ok bounds)
    (apart : ¬ boxesIntersect box bounds) : Accounted fl box [Mark.image canvas.pen.ctm] := by
  intro mark hmark p inside hp
  obtain rfl := List.mem_singleton.mp hmark
  obtain ⟨q, hq, rfl⟩ := hp
  rw [follows.pen] at inside
  exact absurd (intersects inside (unitSquareBounds_holds hbounds hq)) apart

/-- A form is tested like an image, and overlooked where it leaves the unit square. -/
theorem form_accounted {bounds bbox : BoundingBox} {matrix : Matrix}
    (hbounds : unitSquareBounds fl scan.state.matrix = .ok bounds)
    (apart : ¬ boxesIntersect box bounds) :
    Accounted fl box [Mark.form canvas.pen.ctm bbox matrix] := by
  intro mark hmark p inside hp
  obtain rfl := List.mem_singleton.mp hmark
  obtain ⟨q, hq, rfl⟩ := hp
  by_cases square : unitSquare.Holds (affine matrix q)
  · rw [follows.pen] at inside
    exact absurd (intersects inside (unitSquareBounds_holds hbounds square)) apart
  · exact .inr ⟨q, hq, square⟩

theorem stays_placed {xobject : XObject}
    (h : visit fl box scan (.Do xobject) = .ok (some scan')) :
    Stays fl box (canvas, [XObject.mark canvas.pen.ctm xobject]) scan' := by
  obtain ⟨bounds, hbounds, h⟩ := bind_ok.mp h
  have hvisit := pure_ok.mp h
  split at hvisit
  · cases hvisit
  case isFalse apart =>
    obtain rfl := Option.some.inj hvisit
    refine ⟨follows, ?_⟩
    cases xobject with
    | image => exact image_accounted follows hbounds apart
    | form bbox matrix => exact form_accounted follows hbounds apart

theorem stays_paint {painting : PathPainting}
    (h : visit fl box scan (.paint painting) = .ok (some scan')) :
    Stays fl box (canvas.perform (.paint painting)) scan' := by
  obtain ⟨occupied, hpaint, h⟩ := bind_ok.mp h
  cases occupied with
  | true => cases Except.ok.inj h
  | false =>
    obtain rfl := Option.some.inj (Except.ok.inj h)
    exact ⟨follows.withPath Traced.empty,
      paint_accounted follows.pen follows.limit follows.traced hpaint⟩

end

theorem controls_curve {b c d current p : Point} (h : p ∈ (Segment.curve current b c d).controls) :
    p = current ∨ p ∈ [b, c, d] := by
  simpa only [Segment.controls, List.mem_cons] using h

theorem controls_from {c d current p : Point}
    (h : p ∈ (Segment.curve current current c d).controls) : p = current ∨ p ∈ [c, d] := by
  obtain hp | hp := controls_curve h
  · exact .inl hp
  · exact List.mem_cons.mp hp

theorem controls_into {b d current p : Point}
    (h : p ∈ (Segment.curve current b d d).controls) : p = current ∨ p ∈ [b, d] :=
  (controls_curve h).imp_right fun hp => by simpa using hp

/-- Whatever one operation paints inside the box is found, a border, or overlooked. -/
theorem visit_stays {box : BoundingBox} {canvas : Canvas} {scan scan' : Scan}
    (follows : Follows canvas scan) {operation : Operation}
    (h : visit fl box scan operation = .ok (some scan')) :
    Stays fl box (canvas.perform operation) scan' := by
  cases operation with
  | q =>
    obtain rfl := Option.some.inj (Except.ok.inj h)
    exact stays_save follows
  | Q => exact stays_restore follows h
  | cm operands => exact stays_concat follows h
  | w operands =>
    obtain ⟨state, hstate, h⟩ := bind_ok.mp h
    obtain rfl := Option.some.inj (Except.ok.inj h)
    obtain ⟨value, hvalue, rfl⟩ := withLineWidth_ok hstate
    exact stays_adjust follows hvalue rfl follows.limit
  | J operands =>
    obtain ⟨value, hvalue, h⟩ := bind_ok.mp h
    obtain rfl := Option.some.inj (Except.ok.inj h)
    exact stays_adjust follows (singlePdfInteger_ok hvalue) rfl follows.limit
  | j operands =>
    obtain ⟨value, hvalue, h⟩ := bind_ok.mp h
    obtain rfl := Option.some.inj (Except.ok.inj h)
    exact stays_adjust follows (singlePdfInteger_ok hvalue) rfl follows.limit
  | M operands =>
    obtain ⟨state, hstate, h⟩ := bind_ok.mp h
    obtain rfl := Option.some.inj (Except.ok.inj h)
    obtain ⟨value, hvalue, large, rfl⟩ := withMiterLimit_ok hstate
    exact stays_adjust follows hvalue rfl large
  | d operands =>
    obtain ⟨state, hstate, h⟩ := bind_ok.mp h
    obtain rfl := Option.some.inj (Except.ok.inj h)
    obtain ⟨⟨set, hset, hpen⟩, limit⟩ := sets_dash _ _ _ follows.limit hstate
    exact stays_adjust follows hset hpen limit
  | gs parameters =>
    obtain ⟨state, hstate, h⟩ := bind_ok.mp h
    obtain rfl := Option.some.inj (Except.ok.inj h)
    obtain ⟨⟨set, hset, hpen⟩, limit⟩ := extended_sets _ _ _ follows.limit hstate
    obtain rfl := Except.ok.inj hset
    simp only [Canvas.perform, follows.pen, hpen]
    exact ⟨follows.withState limit, .nil box⟩
  | inlineImage => exact @stays_placed _ _ _ _ _ follows .image h
  | Do xobject => exact stays_placed follows h
  | m operands =>
    obtain ⟨points, hpoints, h⟩ := bind_ok.mp h
    obtain rfl := Option.some.inj (Except.ok.inj h)
    obtain ⟨p, rfl⟩ := List.length_eq_one_iff.mp (pathPoints_ok hpoints).2
    exact stays_draw follows hpoints (follows.traced.move p)
  | l operands =>
    obtain ⟨points, hpoints, h⟩ := bind_ok.mp h
    obtain rfl := Option.some.inj (Except.ok.inj h)
    obtain ⟨p, rfl⟩ := List.length_eq_one_iff.mp (pathPoints_ok hpoints).2
    exact stays_draw follows hpoints (follows.traced.line p)
  | c operands =>
    obtain ⟨points, hpoints, h⟩ := bind_ok.mp h
    obtain rfl := Option.some.inj (Except.ok.inj h)
    obtain ⟨b, c, d, rfl⟩ := List.length_eq_three.mp (pathPoints_ok hpoints).2
    exact stays_draw follows hpoints (follows.traced.curve (fun _ _ => controls_curve) (by simp))
  | v operands =>
    obtain ⟨points, hpoints, h⟩ := bind_ok.mp h
    obtain rfl := Option.some.inj (Except.ok.inj h)
    obtain ⟨c, d, rfl⟩ := List.length_eq_two.mp (pathPoints_ok hpoints).2
    exact stays_draw follows hpoints (follows.traced.curve (fun _ _ => controls_from) le_rfl)
  | y operands =>
    obtain ⟨points, hpoints, h⟩ := bind_ok.mp h
    obtain rfl := Option.some.inj (Except.ok.inj h)
    obtain ⟨b, d, rfl⟩ := List.length_eq_two.mp (pathPoints_ok hpoints).2
    exact stays_draw follows hpoints (follows.traced.curve (fun _ _ => controls_into) le_rfl)
  | re operands =>
    obtain ⟨points, hpoints, h⟩ := bind_ok.mp h
    obtain rfl := Option.some.inj (Except.ok.inj h)
    obtain ⟨a, b, c, d, hcorners, rfl⟩ := rectanglePoints_ok hpoints
    simp only [Canvas.perform, follows.pen, hcorners]
    exact stays_path follows (follows.traced.rectangle a b c d)
  | h =>
    obtain rfl := Option.some.inj (Except.ok.inj h)
    exact stays_path follows follows.traced.close
  | paint painting => exact stays_paint follows h
  | n =>
    obtain rfl := Option.some.inj (Except.ok.inj h)
    exact stays_path follows Traced.empty
  | sh => cases h
  | other =>
    obtain rfl := Option.some.inj (Except.ok.inj h)
    exact ⟨follows, .nil box⟩

theorem scan_accounted {box : BoundingBox} (operations : List Operation) {canvas : Canvas}
    {scan : Scan} (follows : Follows canvas scan)
    (h : scanOperations fl box scan operations = .ok false) :
    Accounted fl box (canvas.marks operations) := by
  induction operations generalizing canvas scan with
  | nil => exact .nil box
  | cons operation rest ih =>
    obtain ⟨next, hvisit, h⟩ := bind_ok.mp h
    cases next with
    | none => cases Except.ok.inj h
    | some scan' =>
      obtain ⟨follows', here⟩ := visit_stays follows hvisit
      exact here.append (ih follows' h)

theorem normalize_eq {rect : BoundingBox} (hx : rect.x1 ≤ rect.x2) (hy : rect.y1 ≤ rect.y2) :
    BoundingBox.normalize rect = rect := by
  simp only [BoundingBox.normalize, min_eq_left hx, max_eq_right hx, min_eq_left hy,
    max_eq_right hy]

theorem annotationBounds_mark {rect : Option (List Operand)} {bounds : BoundingBox}
    (h : annotationBounds rect = .ok bounds) :
    annotationMark rect = some (.annotated bounds) := by
  unfold annotationBounds at h
  obtain ⟨values, hvalues, h⟩ := bind_ok.mp h
  unfold annotationMark
  split at h
  case h_1 => rw [hvalues, ← Except.ok.inj h]
  case h_2 => cases h

theorem annotations_accounted {box : BoundingBox} {annotations : List (Option (List Operand))}
    (h : (annotations.anyM fun rect => do
      return decide (boxesIntersect box (← annotationBounds rect))) = .ok false) :
    Accounted fl box (annotations.filterMap annotationMark) := by
  intro mark hmark p inside hp
  obtain ⟨rect, hrect, hannotation⟩ := List.mem_filterMap.mp hmark
  obtain ⟨bounds, hbounds, hapart⟩ := bind_ok.mp (anyM_false h rect hrect)
  have apart : ¬ boxesIntersect box bounds := of_decide_eq_false (Except.ok.inj hapart)
  obtain rfl := Option.some.inj ((annotationBounds_mark hbounds).symm.trans hannotation)
  by_cases ordered : bounds.x1 ≤ bounds.x2 ∧ bounds.y1 ≤ bounds.y2
  case pos =>
    have hp : (BoundingBox.normalize bounds).Holds p := hp
    rw [normalize_eq ordered.1 ordered.2] at hp
    exact absurd (intersects inside hp) apart
  case neg =>
    right
    by_cases hx : bounds.x1 ≤ bounds.x2
    · exact .inr (not_le.mp fun hy => ordered ⟨hx, hy⟩)
    · exact .inl (not_le.mp hx)

noncomputable def fieldOf (page : Page) (box : BoundingBox) : BoundingBox where
  x1 := page.cropBox.x1 + box.x1 / page.userUnit
  y1 := page.cropBox.y1 + box.y1 / page.userUnit
  x2 := page.cropBox.x1 + box.x2 / page.userUnit
  y2 := page.cropBox.y1 + box.y2 / page.userUnit

theorem fromPage_ok {page : Page} {geometry : PageGeometry}
    (h : PageGeometry.fromPage page = .ok geometry) :
    geometry.cropBox = page.cropBox ∧ geometry.userUnit = page.userUnit := by
  unfold PageGeometry.fromPage at h
  split at h
  · cases h
  split at h
  · cases h
  split at h
  · cases h
  · obtain rfl := Except.ok.inj h
    exact ⟨rfl, rfl⟩

theorem toPageUserSpace_ok {geometry : PageGeometry} {p q : Point}
    (h : geometry.toPageUserSpace fl p = .ok q) :
    q = (geometry.cropBox.x1 + p.1 / geometry.userUnit,
      geometry.cropBox.y1 + p.2 / geometry.userUnit) := by
  obtain ⟨width, -, h⟩ := bind_ok.mp h
  obtain ⟨height, -, h⟩ := bind_ok.mp h
  split at h
  · cases h
  · obtain ⟨_, -, h⟩ := bind_ok.mp h
    exact (pure_ok.mp h).symm

theorem boxToPageUserSpace_ok {page : Page} {geometry : PageGeometry} {box pageBox : BoundingBox}
    (hgeometry : PageGeometry.fromPage page = .ok geometry)
    (h : geometry.boxToPageUserSpace fl box = .ok pageBox) : pageBox = fieldOf page box := by
  obtain ⟨hcrop, hunit⟩ := fromPage_ok hgeometry
  unfold PageGeometry.boxToPageUserSpace at h
  split at h
  · cases h
  · obtain ⟨lowerLeft, hlower, h⟩ := bind_ok.mp h
    obtain ⟨upperRight, hupper, h⟩ := bind_ok.mp h
    obtain rfl := toPageUserSpace_ok hlower
    obtain rfl := toPageUserSpace_ok hupper
    rw [← Except.ok.inj h, fieldOf, hcrop, hunit]

theorem reported_accounted {page : Page} {box : BoundingBox}
    (h : visualContentInBox fl page box = .ok false) :
    Accounted fl (fieldOf page box) (marksOf page) := by
  unfold visualContentInBox at h
  obtain ⟨geometry, hgeometry, h⟩ := bind_ok.mp h
  obtain ⟨pageBox, hbox, h⟩ := bind_ok.mp h
  obtain ⟨occupied, hscan, h⟩ := bind_ok.mp h
  obtain rfl := boxToPageUserSpace_ok hgeometry hbox
  cases occupied with
  | true => cases Except.ok.inj h
  | false => exact (scan_accounted _ Follows.start hscan).append (annotations_accounted h)

noncomputable def wholes (x : ℝ) : ℝ := ⌊x⌋

noncomputable def imagePage : Page where
  cropBox := unitSquare
  contents := some [.Do .image]

theorem imagePage_mark : .image id ∈ marksOf imagePage := by
  simp [marksOf, imagePage, Canvas.marks, Canvas.perform, XObject.mark]

theorem unitSquare_geometry (contents : Option (List Operation)) :
    PageGeometry.fromPage { imagePage with contents := contents } = .ok ⟨unitSquare, 0, 1⟩ := by
  norm_num [PageGeometry.fromPage, imagePage, unitSquare]

theorem unitSquare_box :
    PageGeometry.boxToPageUserSpace wholes ⟨unitSquare, 0, 1⟩ unitSquare = .ok unitSquare := by
  norm_num [PageGeometry.boxToPageUserSpace, PageGeometry.toPageUserSpace, PageGeometry.width,
    PageGeometry.height, unitSquare, exactly, wholes, ok_bind]

theorem imagePage_answered :
    ∃ occupied, visualContentInBox wholes imagePage unitSquare = .ok occupied := by
  have bounds : unitSquareBounds wholes ⟨1, 0, 0, 1, 0, 0⟩ = .ok unitSquare := by
    norm_num [unitSquareBounds, transformPoint, affine, productSum, exactly, wholes,
      pointsBounds, least, greatest, unitSquare, ok_bind]
  have scanned : scanOperations wholes unitSquare {} [.Do .image] = .ok true := by
    unfold scanOperations visit
    rw [bounds]
    norm_num [ok_bind, boxesIntersect, unitSquare, pure_ok]
  have geometry : PageGeometry.fromPage imagePage = .ok ⟨unitSquare, 0, 1⟩ :=
    unitSquare_geometry (some [.Do .image])
  refine ⟨true, ?_⟩
  unfold visualContentInBox
  rw [geometry, ok_bind, unitSquare_box, ok_bind]
  simp only [imagePage, Option.getD_some, scanned, ok_bind, if_true]
  rfl

example : visualContentInBox wholes { imagePage with contents := none } unitSquare = .ok false := by
  unfold visualContentInBox
  rw [unitSquare_geometry none, ok_bind, unitSquare_box, ok_bind]
  rfl

end AppraisalReview.FieldOccupancy
