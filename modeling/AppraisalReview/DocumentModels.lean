import AppraisalReview.DecimalText
import AppraisalReview.Identifiers

set_option autoImplicit false

/-!
# Versioned source registry

Source documents, citations into them, and the rule by which a citation
resolves. A stored model is plain data; `valid` is the check its schema makes
when the data is validated again.
-/
namespace AppraisalReview

inductive Escape where
  | valueError (message : String)
  | unsupportedDocumentURI
  | validation
  | stopIteration
  | arithmetic (signal : Signal)
deriving DecidableEq

/-- `except ValueError` also catches the errors derived from it. -/
def Escape.isValueError : Escape → Bool
  | .arithmetic _ | .stopIteration => false
  | _ => true

structure SplitURL where
  scheme : String
  netloc : String
  path : String
  query : String
  fragment : String
deriving DecidableEq

/-- Functions and tables of the Python runtime that the review calls. A URL
that cannot be split gives `none`. -/
structure Runtime where
  sha256 : String → Digest
  casefold : String → String
  repr : String → String
  decimalDigit : Char → Option ℕ
  urlsplit : String → Option SplitURL
  unquote : String → String

/-- `posixpath.normpath` of a path that starts with a slash. -/
def normpath (path : String) : String :=
  let slashes := if path.toList.take 2 = ['/', '/'] ∧ path.toList.take 3 ≠ ['/', '/', '/'] then 2 else 1
  let keep (kept : List (List Char)) (part : List Char) : List (List Char) :=
    if part = [] ∨ part = ['.'] then kept
    else if part = ['.', '.'] then kept.dropLast
    else kept ++ [part]
  let parts := (path.toList.splitOn '/').foldl keep []
  String.ofList (List.replicate slashes '/' ++ List.intercalate ['/'] parts)

structure DocumentIdentity where
  scheme : String
  authority : String
  path : String
deriving DecidableEq

def documentIdentity (rt : Runtime) (uri : String) : Except Escape DocumentIdentity :=
  if uri = "" ∨ uri.toList.any (·.toNat < 33) then .error .unsupportedDocumentURI
  else match rt.urlsplit uri with
    | none => .error (.valueError "Invalid URL")
    | some parts =>
      if parts.query ≠ "" ∨ parts.fragment ≠ "" ∨ uri.toList.any (fun c => c = '?' || c = '#') then
        .error .unsupportedDocumentURI
      else if parts.scheme = "file" ∧ (parts.netloc = "" ∨ parts.netloc = "localhost") then
        let path := rt.unquote parts.path
        if path.toList.head? ≠ some '/' ∨ path = "/" ∨ path.toList.any (·.toNat = 0) then
          .error .unsupportedDocumentURI
        else .ok ⟨"file", "", normpath path⟩
      else if parts.scheme = "s3" ∧ parts.netloc ≠ "" ∧ parts.path ≠ "" ∧ parts.path ≠ "/" then
        if parts.netloc.toList.any (fun c => c = '@' || c = ':' || c = '%') ∨
            parts.path.toList.any (· = '%') then .error .unsupportedDocumentURI
        else .ok ⟨"s3", parts.netloc, String.ofList (parts.path.toList.drop 1)⟩
      else .error .unsupportedDocumentURI

structure Box where
  x0 : Binary64
  y0 : Binary64
  x1 : Binary64
  y1 : Binary64
deriving DecidableEq

def Box.same (a b : Box) : Bool :=
  a.x0.same b.x0 && a.y0.same b.y0 && a.x1.same b.x1 && a.y1.same b.y1

inductive RegionKind where
  | text | cell | selection | image
deriving DecidableEq

inductive Marking where
  | checked | unchecked | ambiguous
deriving DecidableEq

structure SourceRegion where
  id : String
  kind : RegionKind
  bbox : Box
  text : String := ""
  tableId : Option String := none
  row : Option ℤ := none
  column : Option ℤ := none
  selection : Option Marking := none

structure SourcePage where
  number : ℤ
  width : Binary64
  height : Binary64
  rotation : ℕ := 0
  cropBox : Box
  hasText : Bool
  regions : List SourceRegion

inductive DocumentRole where
  | criteria | forms | reference | brief
deriving DecidableEq

structure SourceDocument where
  documentId : String
  uri : String
  contentHash : String
  version : String
  role : DocumentRole
  documentDate : Option String := none
  pages : List SourcePage

structure SourceCitation where
  documentId : String
  contentHash : String
  version : String
  page : ℤ
  regionId : String
  bbox : Box
  excerpt : String
deriving DecidableEq

structure SourceRegistry where
  documents : List SourceDocument

def sameList {α : Type} (same : α → α → Bool) : List α → List α → Bool
  | [], [] => true
  | x :: xs, y :: ys => same x y && sameList same xs ys
  | _, _ => false

def SourceRegion.same (a b : SourceRegion) : Bool :=
  a.id = b.id && a.kind = b.kind && a.bbox.same b.bbox && a.text = b.text &&
    a.tableId = b.tableId && a.row = b.row && a.column = b.column && a.selection = b.selection

def SourcePage.same (a b : SourcePage) : Bool :=
  a.number = b.number && a.width.same b.width && a.height.same b.height &&
    a.rotation = b.rotation && a.cropBox.same b.cropBox && a.hasText = b.hasText &&
    sameList SourceRegion.same a.regions b.regions

def SourceDocument.sameContent (a b : SourceDocument) : Bool :=
  a.documentId = b.documentId && a.contentHash = b.contentHash && a.version = b.version &&
    a.role = b.role && a.documentDate = b.documentDate && sameList SourcePage.same a.pages b.pages

def SourceDocument.sameIdentityAndContent (rt : Runtime) (a b : SourceDocument) :
    Except Escape Bool := do
  let own ← documentIdentity rt a.uri
  let other ← documentIdentity rt b.uri
  return decide (own = other) && a.sameContent b

def zero64 : Binary64 := ⟨⟨"0.0", by decide, by decide⟩, ⟨false, 0, -1⟩, by decide⟩

def one64 : Binary64 := ⟨⟨"1.0", by decide, by decide⟩, ⟨false, 10, -1⟩, by decide⟩

def Binary64.unit (x : Binary64) : Bool := zero64.le x && x.le one64

def SourcePage.contains (page : SourcePage) (box : Box) : Bool :=
  zero64.le box.x0 && box.x0.lt box.x1 && box.x1.le page.width &&
    (zero64.le box.y0 && box.y0.lt box.y1 && box.y1.le page.height)

def SourcePage.valid (page : SourcePage) : Bool :=
  1 ≤ page.number && zero64.lt page.width && zero64.lt page.height &&
    (page.rotation = 0 || page.rotation = 90 || page.rotation = 180 || page.rotation = 270) &&
    decide (page.regions.map SourceRegion.id).Nodup &&
    page.regions.all fun region => page.contains region.bbox

def SourceDocument.valid (document : SourceDocument) : Bool :=
  digestText document.contentHash && document.version ≠ "" && document.pages ≠ [] &&
    document.pages.all SourcePage.valid &&
    document.pages.map SourcePage.number = (List.range document.pages.length).map fun n => (n + 1 : ℤ)

def SourceCitation.valid (citation : SourceCitation) : Bool :=
  digestText citation.contentHash && 1 ≤ citation.page

def SourceRegistry.valid (registry : SourceRegistry) : Bool :=
  registry.documents ≠ [] && registry.documents.all SourceDocument.valid &&
    decide (registry.documents.map SourceDocument.documentId).Nodup

/-- `excerpt in text` -/
def textContains (text part : String) : Bool := decide (part.toList <:+: text.toList)

def SourceRegion.supports (region : SourceRegion) (citation : SourceCitation) : Bool :=
  region.bbox.same citation.bbox &&
    (((region.kind = .image || region.kind = .cell || region.kind = .selection) &&
        region.text = "" && citation.excerpt = "") ||
      (citation.excerpt ≠ "" && textContains region.text citation.excerpt))

def SourceCitation.cites (citation : SourceCitation) (document : SourceDocument) : Bool :=
  document.documentId = citation.documentId && document.contentHash = citation.contentHash &&
    document.version = citation.version

/-- The first cited document decides; within its page the first region with the id does. -/
def resolvesIn (citation : SourceCitation) : List SourceDocument → Bool
  | [] => false
  | document :: rest =>
    if !citation.cites document then resolvesIn citation rest
    else if document.pages.length < citation.page then false
    else
      match (document.pages[(citation.page - 1).toNat]?).bind fun page =>
        page.regions.find? fun region => region.id = citation.regionId with
      | some region => region.supports citation
      | none => resolvesIn citation rest

def SourceRegistry.resolves (registry : SourceRegistry) (citation : SourceCitation) : Bool :=
  resolvesIn citation registry.documents

def SourceRegistry.citationsValid (registry : SourceRegistry) (refs : List SourceCitation) : Bool :=
  refs ≠ [] && refs.all registry.resolves

end AppraisalReview
