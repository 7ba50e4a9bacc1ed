import AppraisalReview.Plane
import Mathlib.Algebra.Order.Archimedean.Real.Basic
import Mathlib.Algebra.Order.Floor.Ring

set_option autoImplicit false

/-!
# Occupancy of a field box of an official form

One pass over the content stream of a page keeps the graphics state and the
points of the current path, and bounds everything that is painted by boxes.
`fl` rounds a real number to a float. The pass is followed for as long as its
sums, products, quotients and roots are floats themselves.
-/
namespace AppraisalReview.PdfOverlay
open Plane
noncomputable section

/-- An operand, as a list of operands and `float` see it. -/
inductive Operand where
  | number (value : ℝ)
  | array (values : List (Option ℝ))
  | other

/-- `float`, for finite values -/
def Operand.float : Operand → Option ℝ
  | .number value => some value
  | _ => none

/-- What an entry of `/ExtGState` may set; `strokeAdjustment` is `none` unless boolean. -/
structure ExtGState where
  lineWidth : Option Operand := none
  lineCap : Option Operand := none
  lineJoin : Option Operand := none
  miterLimit : Option Operand := none
  dash : Option (List Operand) := none
  strokeAdjustment : Option (Option Bool) := none

inductive XObject where
  | image
  | form (bbox : BoundingBox) (matrix : Matrix)

inductive PathPainting where
  | f | F | fStar | B | BStar | b | bStar | S | s
deriving DecidableEq

/-- `_PATH_FILL_OPERATORS` -/
def PathPainting.fills : PathPainting → Bool
  | .S | .s => false
  | _ => true

/-- `_PATH_FILL_AND_STROKE_OPERATORS` and `_PATH_STROKE_OPERATORS` -/
def PathPainting.strokes : PathPainting → Bool
  | .f | .F | .fStar => false
  | _ => true

inductive Operation where
  | q | Q
  | cm (operands : List Operand)
  | w (operands : List Operand)
  | J (operands : List Operand)
  | j (operands : List Operand)
  | M (operands : List Operand)
  | d (operands : List Operand)
  | gs (parameters : Option ExtGState)
  | inlineImage
  | Do (xobject : XObject)
  | m (operands : List Operand)
  | l (operands : List Operand)
  | c (operands : List Operand)
  | v (operands : List Operand)
  | y (operands : List Operand)
  | re (operands : List Operand)
  | h
  | paint (painting : PathPainting)
  | n
  | sh
  | other

structure Page where
  cropBox : BoundingBox
  rotation : ℤ := 0
  userUnit : ℝ := 1
  contents : Option (List Operation) := none
  annotations : List (Option (List Operand)) := []

/-- `PageGeometry`; its rotation is normalized. -/
structure PageGeometry where
  cropBox : BoundingBox
  rotation : ℤ
  userUnit : ℝ

def PageGeometry.fromPage (page : Page) : Except String PageGeometry :=
  if page.rotation % 360 ∉ [0, 90, 180, 270] then
    .error "PDF page rotation must be a right angle"
  else if page.userUnit ≤ 0 then .error "PDF UserUnit must be finite and positive"
  else if page.cropBox.x2 ≤ page.cropBox.x1 ∨ page.cropBox.y2 ≤ page.cropBox.y1 then
    .error "PDF CropBox must have positive dimensions"
  else .ok ⟨page.cropBox, page.rotation % 360, page.userUnit⟩

section
variable (fl : ℝ → ℝ)

open Classical in
def exactly (results : List ℝ) : Except String Unit :=
  if ∀ x ∈ results, fl x = x then .ok () else .error "rounded"

def PageGeometry.width (geometry : PageGeometry) : Except String ℝ := do
  let width := (geometry.cropBox.x2 - geometry.cropBox.x1) * geometry.userUnit
  exactly fl [geometry.cropBox.x2 - geometry.cropBox.x1, width]
  return width

def PageGeometry.height (geometry : PageGeometry) : Except String ℝ := do
  let height := (geometry.cropBox.y2 - geometry.cropBox.y1) * geometry.userUnit
  exactly fl [geometry.cropBox.y2 - geometry.cropBox.y1, height]
  return height

def PageGeometry.toPageUserSpace (geometry : PageGeometry) (p : Point) : Except String Point := do
  let width ← geometry.width fl
  let height ← geometry.height fl
  if ¬(0 ≤ p.1 ∧ p.1 ≤ width) ∨ ¬(0 ≤ p.2 ∧ p.2 ≤ height) then
    throw "Point is outside the unrotated CropBox"
  let x := geometry.cropBox.x1 + p.1 / geometry.userUnit
  let y := geometry.cropBox.y1 + p.2 / geometry.userUnit
  exactly fl [p.1 / geometry.userUnit, x, p.2 / geometry.userUnit, y]
  return (x, y)

def PageGeometry.boxToPageUserSpace (geometry : PageGeometry) (box : BoundingBox) :
    Except String BoundingBox :=
  if box.x2 ≤ box.x1 ∨ box.y2 ≤ box.y1 then .error "PDF box must have positive dimensions"
  else do
    let lowerLeft ← geometry.toPageUserSpace fl (box.x1, box.y1)
    let upperRight ← geometry.toPageUserSpace fl (box.x2, box.y2)
    return ⟨lowerLeft.1, lowerLeft.2, upperRight.1, upperRight.2⟩

end

def strokeGeometry : String := "PDF stroke geometry cannot be established safely"
def visualGeometry : String := "PDF visual geometry cannot be measured deterministically"
def pathGeometry : String := "PDF painted path geometry cannot be established safely"
def annotationGeometry : String := "PDF annotation geometry cannot be measured deterministically"
def unbalanced : String := "PDF graphics state is unbalanced"
def extendedState : String := "PDF extended graphics state cannot be established safely"

def numbers (operands : List Operand) (expected : ℕ) (message : String) : Except String (List ℝ) :=
  match operands.mapM Operand.float with
  | none => .error message
  | some values => if values.length = expected then .ok values else .error message

/-- `_finite_numbers` -/
def finiteNumbers (operands : List Operand) (expected : ℕ) : Except String (List ℝ) :=
  numbers operands expected visualGeometry

/-- `_single_finite_number` -/
def singleFiniteNumber (operands : List Operand) : Except String ℝ := do
  let values ← finiteNumbers operands 1
  return values.headD 0

section
variable (fl : ℝ → ℝ)

/-- `math.isclose`, its differences and products rounded -/
def isClose (left right relTol absTol : ℝ) : Prop :=
  left = right ∨ |fl (right - left)| ≤ |fl (relTol * right)| ∨
    |fl (right - left)| ≤ |fl (relTol * left)| ∨ |fl (right - left)| ≤ absTol

open Classical in
instance (left right relTol absTol : ℝ) : Decidable (isClose fl left right relTol absTol) :=
  inferInstance

/-- The float `1e-9` -/
def relativeTolerance : ℝ := fl (1 / 10 ^ 9)

end

/-- `int`, of a real number -/
def truncate (value : ℝ) : ℤ := if 0 ≤ value then ⌊value⌋ else ⌈value⌉

def styleOf (integer : ℤ) : Except String (Fin 3) :=
  if integer = 0 then .ok 0
  else if integer = 1 then .ok 1
  else if integer = 2 then .ok 2
  else .error strokeGeometry

/-- `_single_pdf_integer`, for the styles -/
def singlePdfInteger (fl : ℝ → ℝ) (operands : List Operand) : Except String (Fin 3) := do
  let value ← singleFiniteNumber operands
  if isClose fl value (truncate value) (relativeTolerance fl) 0 then styleOf (truncate value)
  else throw strokeGeometry

/-- The matrix of `right` after `left` -/
def compose (left right : Matrix) : Matrix where
  a := left.a * right.a + left.b * right.c
  b := left.a * right.b + left.b * right.d
  c := left.c * right.a + left.d * right.c
  d := left.c * right.b + left.d * right.d
  e := left.e * right.a + left.f * right.c + right.e
  f := left.e * right.b + left.f * right.d + right.f

def affine (matrix : Matrix) (p : Point) : Point :=
  (p.1 * matrix.a + p.2 * matrix.c + matrix.e, p.1 * matrix.b + p.2 * matrix.d + matrix.f)

/-- The results of `x * a + y * c`, one by one -/
def productSum (x a y c : ℝ) : List ℝ := [x * a, y * c, x * a + y * c]

section
variable (fl : ℝ → ℝ)

/-- `_multiply_matrices` -/
def multiplyMatrices (left right : Matrix) : Except String Matrix := do
  let product := compose left right
  exactly fl (productSum left.a right.a left.b right.c ++ productSum left.a right.b left.b right.d ++
    productSum left.c right.a left.d right.c ++ productSum left.c right.b left.d right.d ++
    productSum left.e right.a left.f right.c ++ product.e ::
    productSum left.e right.b left.f right.d ++ [product.f])
  return product

/-- `_transform_point` -/
def transformPoint (matrix : Matrix) (p : Point) : Except String Point := do
  let image := affine matrix p
  exactly fl (productSum p.1 matrix.a p.2 matrix.c ++ image.1 ::
    productSum p.1 matrix.b p.2 matrix.d ++ [image.2])
  return image

end

def buttCap : Fin 3 := 0
def projectingCap : Fin 3 := 2
def miterJoin : Fin 3 := 0
def defaultMiterLimit : ℝ := 10

/-- `_GraphicsState` -/
structure GraphicsState where
  matrix : Matrix := ⟨1, 0, 0, 1, 0, 0⟩
  lineWidth : ℝ := 1
  lineCap : Fin 3 := buttCap
  lineJoin : Fin 3 := miterJoin
  miterLimit : ℝ := defaultMiterLimit
  dashPattern : List ℝ := []
  dashPhase : ℝ := 0

section
variable (fl : ℝ → ℝ)

def withLineWidth (state : GraphicsState) (operands : List Operand) :
    Except String GraphicsState := do
  let lineWidth ← singleFiniteNumber operands
  if lineWidth < 0 then throw strokeGeometry
  else return { state with lineWidth := lineWidth }

def withMiterLimit (state : GraphicsState) (operands : List Operand) :
    Except String GraphicsState := do
  let miterLimit ← singleFiniteNumber operands
  if miterLimit < 1 then throw strokeGeometry
  else return { state with miterLimit := miterLimit }

def dashNumbers : List Operand → Option (List ℝ × ℝ)
  | [.array values, phase] => do
    let pattern ← values.mapM id
    let phase ← phase.float
    return (pattern, phase)
  | _ => none

/-- `_with_dash_pattern`; the sum is zero when all its terms are, rounded or not. -/
def withDashPattern (state : GraphicsState) (operands : List Operand) :
    Except String GraphicsState :=
  match dashNumbers operands with
  | none => .error strokeGeometry
  | some (pattern, phase) =>
    if (∃ x ∈ pattern, x < 0) ∨
        (pattern ≠ [] ∧ isClose fl pattern.sum 0 (relativeTolerance fl) 0) then
      .error strokeGeometry
    else .ok { state with dashPattern := pattern, dashPhase := phase }

def optionally {α : Type} (update : GraphicsState → α → Except String GraphicsState)
    (state : GraphicsState) : Option α → Except String GraphicsState
  | none => .ok state
  | some parameter => update state parameter

/-- `_with_extended_graphics_state` -/
def withExtendedGraphicsState (state : GraphicsState) :
    Option ExtGState → Except String GraphicsState
  | none => .error extendedState
  | some parameters => do
    let state ← optionally (fun state x => withLineWidth state [x]) state parameters.lineWidth
    let state ← optionally (fun state x => do
      return { state with lineCap := ← singlePdfInteger fl [x] }) state parameters.lineCap
    let state ← optionally (fun state x => do
      return { state with lineJoin := ← singlePdfInteger fl [x] }) state parameters.lineJoin
    let state ← optionally (fun state x => withMiterLimit state [x]) state parameters.miterLimit
    let state ← optionally (withDashPattern fl) state parameters.dash
    match parameters.strokeAdjustment with
    | none | some (some false) => return state
    | some _ => throw "PDF stroke adjustment geometry cannot be established safely"

end

/-- `_boxes_intersect` -/
def boxesIntersect (left right : BoundingBox) : Prop :=
  ¬(left.x2 ≤ right.x1 ∨ left.x1 ≥ right.x2 ∨ left.y2 ≤ right.y1 ∨ left.y1 ≥ right.y2)

instance (left right : BoundingBox) : Decidable (boxesIntersect left right) :=
  inferInstanceAs (Decidable (¬_))

def least : List ℝ → ℝ
  | [] => 0
  | x :: rest => rest.foldl min x

def greatest : List ℝ → ℝ
  | [] => 0
  | x :: rest => rest.foldl max x

/-- `_points_bounds` -/
def pointsBounds (points : List Point) : BoundingBox where
  x1 := least (points.map Prod.fst)
  y1 := least (points.map Prod.snd)
  x2 := greatest (points.map Prod.fst)
  y2 := greatest (points.map Prod.snd)

def pairUp : List ℝ → List Point
  | x :: y :: rest => (x, y) :: pairUp rest
  | _ => []

/-- The corners of a rectangle: lower left, lower right, upper left, upper right. -/
def rectangleCorners (x y width height : ℝ) : List Point :=
  [(x, y), (x + width, y), (x, y + height), (x + width, y + height)]

section
variable (fl : ℝ → ℝ)

/-- `_unit_square_bounds` -/
def unitSquareBounds (matrix : Matrix) : Except String BoundingBox := do
  let corners ← [(0, 0), (1, 0), (0, 1), (1, 1)].mapM (transformPoint fl matrix)
  return pointsBounds corners

/-- `_path_points` -/
def pathPoints (operands : List Operand) (matrix : Matrix) (pairs : ℕ) :
    Except String (List Point) := do
  let values ← numbers operands (pairs * 2) pathGeometry
  (pairUp values).mapM (transformPoint fl matrix)

/-- `_rectangle_points` -/
def rectanglePoints (operands : List Operand) (matrix : Matrix) : Except String (List Point) := do
  match ← numbers operands 4 pathGeometry with
  | [x, y, width, height] => do
    exactly fl [x + width, y + height]
    (rectangleCorners x y width height).mapM (transformPoint fl matrix)
  | _ => throw pathGeometry

/-- `_maximum_linear_scale` -/
def maximumLinearScale (matrix : Matrix) : Except String ℝ := do
  let squaredSum := matrix.a * matrix.a + matrix.b * matrix.b + matrix.c * matrix.c +
    matrix.d * matrix.d
  let determinant := matrix.a * matrix.d - matrix.b * matrix.c
  let discriminant := max 0 (squaredSum * squaredSum - 4 * determinant * determinant)
  let scale := √((squaredSum + √discriminant) / 2)
  exactly fl [matrix.a * matrix.a, matrix.b * matrix.b,
    matrix.a * matrix.a + matrix.b * matrix.b, matrix.c * matrix.c,
    matrix.a * matrix.a + matrix.b * matrix.b + matrix.c * matrix.c, matrix.d * matrix.d,
    squaredSum, matrix.a * matrix.d, matrix.b * matrix.c, determinant, squaredSum * squaredSum,
    4 * determinant, 4 * determinant * determinant,
    squaredSum * squaredSum - 4 * determinant * determinant, √discriminant,
    squaredSum + √discriminant, (squaredSum + √discriminant) / 2, scale]
  if scale ≤ 0 then throw strokeGeometry else return scale

/-- `_effective_line_width`: the width of a hairline depends on the device. -/
def effectiveLineWidth (state : GraphicsState) : Except String ℝ :=
  if state.lineWidth ≤ 0 then .error strokeGeometry
  else do
    let scale ← maximumLinearScale fl state.matrix
    exactly fl [state.lineWidth * scale]
    return state.lineWidth * scale

def half (width : ℝ) : ℝ := width / 2

/-- `_stroke_bounds` -/
def strokeBounds (points : List Point) (state : GraphicsState) (includeJoins : Bool) :
    Except String BoundingBox := do
  let width ← effectiveLineWidth fl state
  let radius := half width * if includeJoins ∧ state.lineJoin = miterJoin then state.miterLimit else 1
  let bounds := (pointsBounds points).grow radius
  exactly fl [half width, radius, bounds.x1, bounds.y1, bounds.x2, bounds.y2]
  return bounds

def strokeTouches (box : BoundingBox) (state : GraphicsState) (points : List Point)
    (includeJoins : Bool) : Except String Bool := do
  let bounds ← strokeBounds fl points state includeJoins
  return decide (boxesIntersect box bounds)

/-- `_stroke_intersects_box`: the edges of a lone rectangle are tested one by one. -/
def strokeIntersectsBox (box : BoundingBox) (points : List Point) (state : GraphicsState)
    (singleRectangle : Bool) : Except String Bool :=
  match singleRectangle, points with
  | true, [lowerLeft, lowerRight, upperLeft, upperRight] =>
    [[lowerLeft, lowerRight], [lowerRight, upperRight], [upperRight, upperLeft],
      [upperLeft, lowerLeft]].anyM fun edge => strokeTouches fl box state edge true
  | _, _ => strokeTouches fl box state points (2 < points.length)

/-- The float `1e-6` -/
def geometryTolerance : ℝ := fl (1 / 10 ^ 6)

/-- `_coordinates_close` -/
def coordinatesClose (left right : ℝ) : Prop := isClose fl left right 0 (geometryTolerance fl)

/-- `_points_close` -/
def pointsClose (left right : Point) : Prop :=
  coordinatesClose fl left.1 right.1 ∧ coordinatesClose fl left.2 right.2

/-- `_same_point_set` -/
def samePointSet (left right : List Point) : Prop :=
  (∀ p ∈ left, ∃ q ∈ right, pointsClose fl p q) ∧ ∀ q ∈ right, ∃ p ∈ left, pointsClose fl p q

/-- `_line_covers_field_boundary` -/
def lineCoversFieldBoundary (start finish : Point) (box : BoundingBox) : Prop :=
  (coordinatesClose fl start.2 finish.2 ∧
    (coordinatesClose fl start.2 box.y1 ∨ coordinatesClose fl start.2 box.y2) ∧
    min start.1 finish.1 ≤ fl (box.x1 + geometryTolerance fl) ∧
    max start.1 finish.1 ≥ fl (box.x2 - geometryTolerance fl)) ∨
  (coordinatesClose fl start.1 finish.1 ∧
    (coordinatesClose fl start.1 box.x1 ∨ coordinatesClose fl start.1 box.x2) ∧
    min start.2 finish.2 ≤ fl (box.y1 + geometryTolerance fl) ∧
    max start.2 finish.2 ≥ fl (box.y2 - geometryTolerance fl))

end

def maxTableBorderWidth : ℝ := 2

inductive PathKind where
  | move | line | rectangle | other
deriving DecidableEq

def corners (box : BoundingBox) : List Point :=
  [(box.x1, box.y1), (box.x2, box.y1), (box.x1, box.y2), (box.x2, box.y2)]

section
variable (fl : ℝ → ℝ)

def coincides (points : List Point) (box : BoundingBox) (kind : Option PathKind) : Prop :=
  match kind, points with
  | some .line, [start, finish] => lineCoversFieldBoundary fl start finish box
  | some .rectangle, [a, b, c, d] => samePointSet fl [a, b, c, d] (corners box)
  | _, _ => False

def plainStyle (state : GraphicsState) : Prop :=
  state.lineCap = buttCap ∧ state.lineJoin = miterJoin ∧ state.dashPattern = [] ∧
    coordinatesClose fl state.dashPhase 0

open Classical in
/-- `_is_allowed_table_border` -/
def isAllowedTableBorder (points : List Point) (box : BoundingBox) (state : GraphicsState)
    (kind : Option PathKind) : Except String Bool :=
  if plainStyle fl state then do
    let width ← effectiveLineWidth fl state
    return decide (width ≤ maxTableBorderWidth ∧ coincides fl points box kind)
  else .ok false

end

structure Scan where
  state : GraphicsState := {}
  stack : List GraphicsState := []
  points : List Point := []
  kind : Option PathKind := none

def Scan.withState (scan : Scan) (state : GraphicsState) : Scan := { scan with state := state }

def Scan.extend (scan : Scan) (points : List Point) (kind : PathKind) : Scan :=
  { scan with points := scan.points ++ points, kind := some kind }

def Scan.clear (scan : Scan) : Scan := { scan with points := [], kind := none }

section
variable (fl : ℝ → ℝ)

def paintPath (box : BoundingBox) (scan : Scan) (painting : PathPainting) : Except String Bool :=
  let stroke := strokeIntersectsBox fl box scan.points scan.state (scan.kind = some .rectangle)
  if painting.fills then
    if scan.points = [] then .error pathGeometry
    else if boxesIntersect box (pointsBounds scan.points) then .ok true
    else if painting.strokes then stroke else .ok false
  else if scan.points = [] then .error strokeGeometry
  else do
    if ← isAllowedTableBorder fl scan.points box scan.state scan.kind then return false
    else stroke

/-- One operation; `none` answers that the box is occupied. -/
def visit (box : BoundingBox) (scan : Scan) : Operation → Except String (Option Scan)
  | .q => .ok (some { scan with stack := scan.state :: scan.stack })
  | .Q =>
    match scan.stack with
    | [] => .error unbalanced
    | state :: rest => .ok (some { scan with state := state, stack := rest })
  | .cm operands => do
    match ← finiteNumbers operands 6 with
    | [a, b, c, d, e, f] => return some (scan.withState
        { scan.state with matrix := ← multiplyMatrices fl ⟨a, b, c, d, e, f⟩ scan.state.matrix })
    | _ => throw visualGeometry
  | .w operands => do return some (scan.withState (← withLineWidth scan.state operands))
  | .J operands => do
    return some (scan.withState { scan.state with lineCap := ← singlePdfInteger fl operands })
  | .j operands => do
    return some (scan.withState { scan.state with lineJoin := ← singlePdfInteger fl operands })
  | .M operands => do return some (scan.withState (← withMiterLimit scan.state operands))
  | .d operands => do return some (scan.withState (← withDashPattern fl scan.state operands))
  | .gs parameters => do
    return some (scan.withState (← withExtendedGraphicsState fl scan.state parameters))
  | .inlineImage | .Do _ => do
    let bounds ← unitSquareBounds fl scan.state.matrix
    return if boxesIntersect box bounds then none else some scan
  | .m operands => do
    let points ← pathPoints fl operands scan.state.matrix 1
    return some (scan.extend points (if scan.points = [] then .move else .other))
  | .l operands => do
    let points ← pathPoints fl operands scan.state.matrix 1
    return some (scan.extend points
      (if scan.kind = some .move ∧ scan.points.length = 1 then .line else .other))
  | .c operands => do
    return some (scan.extend (← pathPoints fl operands scan.state.matrix 3) .other)
  | .v operands | .y operands => do
    return some (scan.extend (← pathPoints fl operands scan.state.matrix 2) .other)
  | .re operands => do
    let points ← rectanglePoints fl operands scan.state.matrix
    return some (scan.extend points (if scan.points = [] then .rectangle else .other))
  | .paint painting => do
    return if ← paintPath fl box scan painting then none else some scan.clear
  | .n => .ok (some scan.clear)
  | .sh => .error "PDF shading geometry cannot be established safely"
  | .h | .other => .ok (some scan)

/-- The loop over the operations; `true` answers that the box is occupied. -/
def scanOperations (box : BoundingBox) : Scan → List Operation → Except String Bool
  | scan, [] => if scan.stack = [] then .ok false else .error unbalanced
  | scan, operation :: rest => do
    match ← visit fl box scan operation with
    | none => return true
    | some scan => scanOperations box scan rest

end

def annotationBounds (rect : Option (List Operand)) : Except String BoundingBox := do
  match ← numbers (rect.getD []) 4 annotationGeometry with
  | [x1, y1, x2, y2] => return ⟨x1, y1, x2, y2⟩
  | _ => throw annotationGeometry

/-- `visual_content_in_box` -/
def visualContentInBox (fl : ℝ → ℝ) (page : Page) (cropLocalBox : BoundingBox) : Except String Bool := do
  let geometry ← PageGeometry.fromPage page
  let pageBox ← geometry.boxToPageUserSpace fl cropLocalBox
  let painted ← scanOperations fl pageBox {} (page.contents.getD [])
  if painted then return true
  else page.annotations.anyM fun rect => do
    return decide (boxesIntersect pageBox (← annotationBounds rect))

end

end AppraisalReview.PdfOverlay
