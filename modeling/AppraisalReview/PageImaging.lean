import AppraisalReview.PdfOverlay

set_option autoImplicit false

/-!
# What the operations of a page paint

The imaging model of page content: paths are drawn on the page through the
current transformation, and strokes by a pen that is round in user space.
Where an extent is hard to say exactly it is said too large, never too small,
and the projecting caps of a dashed path alone are said for every point of it.
-/
namespace AppraisalReview.PageImaging
open Plane PdfOverlay
noncomputable section

structure Subpath where
  start : Point
  current : Point
  segments : List Segment := []
  closed : Bool := false

abbrev Path := List Subpath

def Subpath.close (sub : Subpath) : Subpath :=
  if sub.closed ∨ sub.segments.isEmpty then sub
  else { sub with
    current := sub.start
    segments :=
      if sub.current = sub.start then sub.segments
      else sub.segments ++ [.line sub.current sub.start]
    closed := true }

def draw (segment : Point → Segment) : Path → Path
  | [] => []
  | sub :: rest =>
    if sub.closed then
      { start := sub.start, current := (segment sub.current).finish
        segments := [segment sub.current] } :: sub :: rest
    else
      { sub with
        current := (segment sub.current).finish
        segments := sub.segments ++ [segment sub.current] } :: rest

def closeLast : Path → Path
  | [] => []
  | sub :: rest => sub.close :: rest

/-- The four sides of a rectangle, in the order in which they are drawn. -/
def rectangle (a b c d : Point) : Subpath where
  start := a
  current := a
  segments := [.line a b, .line b c, .line c d, .line d a]
  closed := true

def Subpath.trace (sub : Subpath) : Set Point :=
  {p | p = sub.start ∨ ∃ segment ∈ sub.segments, p ∈ segment.trace}

def outline (path : Path) : Set Point :=
  {p | ∃ sub ∈ path, p ∈ sub.trace ∨ p ∈ (Segment.line sub.current sub.start).trace}

structure Pen where
  ctm : Point → Point := id
  width : ℝ := 1
  cap : Fin 3 := buttCap
  join : Fin 3 := miterJoin
  miterLimit : ℝ := defaultMiterLimit
  dash : List ℝ := []
  phase : ℝ := 0

def Pen.spread (pen : Pen) (v : Point) : Point := pen.ctm v - pen.ctm 0

/-- A unit vector of user space that runs along a vector of the page. -/
def Pen.Along (pen : Pen) (u v : Point) : Prop :=
  lengthSq u = 1 ∧ ∃ k : ℝ, 0 < k ∧ pen.spread u = k • v

/-- The normal to the left (`1`) or to the right (`-1`) of a vector. -/
def normal (side : ℝ) (u : Point) : Point := (-(side * u.2), side * u.1)

def dot (v w : Point) : ℝ := v.1 * w.1 + v.2 * w.2

/-- Half a width to each side of the path, with round caps and joins, and bevels. -/
def Pen.sides (pen : Pen) (path : Path) : Set Point :=
  {p | ∃ sub ∈ path, ∃ q ∈ sub.trace, ∃ u, lengthSq u ≤ (half pen.width) ^ 2 ∧ p = q + pen.spread u}

def miterTip (half : ℝ) (n n' : Point) : Point := (half / (1 + dot n n')) • (n + n')

structure Pen.Miter (pen : Pen) (n n' w : Point) : Prop where
  turns : 0 < 1 + dot n n'
  limit : lengthSq (miterTip (half pen.width) n n') ≤ (pen.miterLimit * (half pen.width)) ^ 2
  spans : w ∈ convexHull ℝ
    {0, (half pen.width) • n, (half pen.width) • n', miterTip (half pen.width) n n'}

/-- A joint of two segments; no miter turns back on the segment that it comes from. -/
structure Joint (sub : Subpath) (s s' : Segment) : Prop where
  first : s ∈ sub.segments
  second : s' ∈ sub.segments
  meets : s.finish = s'.start
  onward : s' ≠ s.reverse

def Pen.miters (pen : Pen) (path : Path) : Set Point :=
  {p | pen.join = miterJoin ∧ ∃ sub ∈ path, ∃ s s', Joint sub s s' ∧
    ∃ v ∈ s.arriving, ∃ v' ∈ s'.leaving, ∃ u u' side w, pen.Along u v ∧ pen.Along u' v' ∧
      (side = 1 ∨ side = -1) ∧ pen.Miter (normal side u) (normal side u') w ∧
      p = s.finish + pen.spread w}

def Pen.End (pen : Pen) (sub : Subpath) (q v : Point) : Prop :=
  if pen.dash = [] then sub.closed = false ∧
    ((∃ segment ∈ sub.segments.find? (·.leaving.isSome), q = segment.start ∧
        (-v) ∈ segment.leaving) ∨
      ∃ segment ∈ sub.segments.reverse.find? (·.leaving.isSome), q = segment.finish ∧
        v ∈ segment.arriving)
  else ∃ segment ∈ sub.segments, q ∈ segment.trace ∧ v ≠ 0

/-- Projecting square caps: half a width beyond the end, as wide as the stroke. -/
def Pen.projectingCaps (pen : Pen) (path : Path) : Set Point :=
  {p | pen.cap = projectingCap ∧ ∃ sub ∈ path, ∃ q v u, pen.End sub q v ∧ pen.Along u v ∧
    ∃ s t : ℝ, 0 ≤ s ∧ s ≤ half pen.width ∧ |t| ≤ half pen.width ∧
      p = q + pen.spread (s • u + t • normal 1 u)}

inductive Mark where
  | filled (path : Path)
  | stroked (path : Path) (pen : Pen)
  | image (ctm : Point → Point)
  | form (ctm : Point → Point) (bbox : BoundingBox) (matrix : Matrix)
  | annotated (rect : BoundingBox)

def BoundingBox.normalize (box : BoundingBox) : BoundingBox :=
  ⟨min box.x1 box.x2, min box.y1 box.y2, max box.x1 box.x2, max box.y1 box.y2⟩

def unitSquare : BoundingBox := ⟨0, 0, 1, 1⟩

def Mark.Covers (p : Point) : Mark → Prop
  | .filled path => Enclosed (outline path) p
  | .stroked path pen => p ∈ pen.sides path ∨ p ∈ pen.miters path ∨ p ∈ pen.projectingCaps path
  | .image ctm => ∃ q, unitSquare.Holds q ∧ p = ctm q
  | .form ctm bbox matrix =>
    ∃ q, (BoundingBox.normalize bbox).Holds q ∧ p = ctm (affine matrix q)
  | .annotated rect => (BoundingBox.normalize rect).Holds p

structure Canvas where
  pen : Pen := {}
  stack : List Pen := []
  path : Path := []

def Canvas.withPen (canvas : Canvas) (pen : Pen) : Canvas := { canvas with pen := pen }

def Canvas.adjust {ε α : Type} (canvas : Canvas) (value : Except ε α) (set : Pen → α → Pen) :
    Canvas :=
  match value with
  | .error _ => canvas
  | .ok value => canvas.withPen (set canvas.pen value)

def Canvas.draws {ε α : Type} (canvas : Canvas) (value : Except ε α) (extend : α → Path → Path) :
    Canvas :=
  match value with
  | .error _ => canvas
  | .ok value => { canvas with path := extend value canvas.path }

def readMatrix (operands : List Operand) : Except String Matrix :=
  match finiteNumbers operands 6 with
  | .ok [a, b, c, d, e, f] => .ok ⟨a, b, c, d, e, f⟩
  | _ => .error visualGeometry

def Pen.points (pen : Pen) (operands : List Operand) (pairs : ℕ) : Except String (List Point) :=
  match numbers operands (pairs * 2) pathGeometry with
  | .ok values => .ok ((pairUp values).map pen.ctm)
  | .error message => .error message

def setOptional {α : Type} (read : α → Except String (Pen → Pen)) (parameter : Option α)
    (pen : Pen) : Pen :=
  match parameter.map read with
  | some (.ok set) => set pen
  | _ => pen

def readStyle (operands : List Operand) : Except String (Fin 3) := do
  let value ← singleFiniteNumber operands
  styleOf (truncate value)

def readDash (operands : List Operand) : Except String (Pen → Pen) :=
  match dashNumbers operands with
  | none => .error strokeGeometry
  | some (pattern, phase) => .ok fun pen => { pen with dash := pattern, phase := phase }

def setWidth (pen : Pen) (value : ℝ) : Pen := { pen with width := value }
def setCap (pen : Pen) (value : Fin 3) : Pen := { pen with cap := value }
def setJoin (pen : Pen) (value : Fin 3) : Pen := { pen with join := value }
def setMiterLimit (pen : Pen) (value : ℝ) : Pen := { pen with miterLimit := value }

def Pen.extended (pen : Pen) : Option ExtGState → Pen
  | none => pen
  | some parameters =>
    let number (set : Pen → ℝ → Pen) (x : Operand) : Except String (Pen → Pen) :=
      (singleFiniteNumber [x]).map fun value pen => set pen value
    let style (set : Pen → Fin 3 → Pen) (x : Operand) : Except String (Pen → Pen) :=
      (readStyle [x]).map fun value pen => set pen value
    setOptional readDash parameters.dash (setOptional (number setMiterLimit) parameters.miterLimit
      (setOptional (style setJoin) parameters.lineJoin (setOptional (style setCap) parameters.lineCap
        (setOptional (number setWidth) parameters.lineWidth pen))))

/-- `b`, `b*` and `s` close the path first. -/
def closes : PathPainting → Bool
  | .b | .bStar | .s => true
  | _ => false

def moveTo (points : List Point) (path : Path) : Path :=
  match points with
  | [p] => { start := p, current := p } :: path
  | _ => path

def lineTo (points : List Point) (path : Path) : Path :=
  match points with
  | [p] => draw (fun current => .line current p) path
  | _ => path

def curveTo (points : List Point) (path : Path) : Path :=
  match points with
  | [b, c, d] => draw (fun current => .curve current b c d) path
  | _ => path

/-- `v`: the current point is the first control as well. -/
def curveFrom (points : List Point) (path : Path) : Path :=
  match points with
  | [c, d] => draw (fun current => .curve current current c d) path
  | _ => path

/-- `y`: the last point is the last control as well. -/
def curveInto (points : List Point) (path : Path) : Path :=
  match points with
  | [b, d] => draw (fun current => .curve current b d d) path
  | _ => path

def Pen.corners (pen : Pen) (operands : List Operand) : Except String (List Point) :=
  match numbers operands 4 pathGeometry with
  | .ok [x, y, width, height] => .ok [pen.ctm (x, y), pen.ctm (x + width, y),
      pen.ctm (x + width, y + height), pen.ctm (x, y + height)]
  | _ => .error pathGeometry

def rectangleTo (points : List Point) (path : Path) : Path :=
  match points with
  | [a, b, c, d] => rectangle a b c d :: path
  | _ => path

def Canvas.paint (canvas : Canvas) (painting : PathPainting) : List Mark :=
  let path := if closes painting then closeLast canvas.path else canvas.path
  (if painting.fills then [.filled path] else []) ++
    if painting.strokes then [.stroked path canvas.pen] else []

def XObject.mark (ctm : Point → Point) : XObject → Mark
  | .image => .image ctm
  | .form bbox matrix => .form ctm bbox matrix

def Canvas.perform (canvas : Canvas) : Operation → Canvas × List Mark
  | .q => ({ canvas with stack := canvas.pen :: canvas.stack }, [])
  | .Q =>
    match canvas.stack with
    | [] => (canvas, [])
    | pen :: rest => ({ canvas with pen := pen, stack := rest }, [])
  | .cm operands => (canvas.adjust (readMatrix operands) fun pen matrix =>
      { pen with ctm := fun p => pen.ctm (affine matrix p) }, [])
  | .w operands => (canvas.adjust (singleFiniteNumber operands) setWidth, [])
  | .J operands => (canvas.adjust (readStyle operands) setCap, [])
  | .j operands => (canvas.adjust (readStyle operands) setJoin, [])
  | .M operands => (canvas.adjust (singleFiniteNumber operands) setMiterLimit, [])
  | .d operands => (canvas.adjust (readDash operands) fun pen set => set pen, [])
  | .gs parameters => (canvas.withPen (canvas.pen.extended parameters), [])
  | .inlineImage => (canvas, [.image canvas.pen.ctm])
  | .Do xobject => (canvas, [XObject.mark canvas.pen.ctm xobject])
  | .m operands => (canvas.draws (canvas.pen.points operands 1) moveTo, [])
  | .l operands => (canvas.draws (canvas.pen.points operands 1) lineTo, [])
  | .c operands => (canvas.draws (canvas.pen.points operands 3) curveTo, [])
  | .v operands => (canvas.draws (canvas.pen.points operands 2) curveFrom, [])
  | .y operands => (canvas.draws (canvas.pen.points operands 2) curveInto, [])
  | .re operands => (canvas.draws (canvas.pen.corners operands) rectangleTo, [])
  | .h => ({ canvas with path := closeLast canvas.path }, [])
  | .paint painting => ({ canvas with path := [] }, canvas.paint painting)
  | .n => ({ canvas with path := [] }, [])
  | .sh | .other => (canvas, [])

def Canvas.marks (canvas : Canvas) : List Operation → List Mark
  | [] => []
  | operation :: rest =>
    (canvas.perform operation).2 ++ (canvas.perform operation).1.marks rest

def annotationMark (rect : Option (List Operand)) : Option Mark :=
  match numbers (rect.getD []) 4 annotationGeometry with
  | .ok [x1, y1, x2, y2] => some (.annotated ⟨x1, y1, x2, y2⟩)
  | _ => none

def marksOf (page : Page) : List Mark :=
  Canvas.marks {} (page.contents.getD []) ++ page.annotations.filterMap annotationMark

end

end AppraisalReview.PageImaging
