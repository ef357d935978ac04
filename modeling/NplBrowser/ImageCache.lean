import Mathlib.Logic.Function.Basic
import Mathlib.Data.List.Basic
import NplBrowser.Bytes
import NplBrowser.Lib.Run

/-!
# The image cache (`image_cache.cc`)

A request goes through three tasks: `LoadImages` on the UI thread looks up what is cached,
`LoadMissing` on the FILE thread reads the files of what is not, and `UpdateCache`, on the UI thread
again, makes the images and puts them into the map. A request with nothing missing is answered by
the first of them. The queues of both threads are first in, first out.

Requests are numbered in the order they are made; a callback is the number of its request. What an
image holds is decided by libcef: `addRep` says whether it accepts a representation.
-/

namespace NplBrowser

def kEmptyId : Bytes := lit "__empty"

structure ImageRep where
  path : Bytes
  /-- The bits of a `float`. -/
  scaleFactor : UInt32
  deriving DecidableEq

structure ImageInfo where
  id : Bytes
  reps : List ImageRep
  internal : Bool := false
  forceReload : Bool := false
  deriving DecidableEq

inductive ImageType
  | none
  | png
  | jpeg
  deriving DecidableEq

structure RepContent where
  type : ImageType
  scaleFactor : UInt32
  contents : Bytes
  deriving DecidableEq

/-- A load of the image `id`, for the entry `index` of a request. -/
structure Load where
  id : Bytes
  request : Nat
  index : Nat
  deriving DecidableEq

/-- A `CefImage`; each load makes a new one. -/
structure Image where
  load : Load
  reps : List RepContent
  deriving DecidableEq

structure ImageContent where
  contents : List RepContent := []
  image : Option Image := none

/-- `image_map_`. An image that could not be loaded is cached as NULL. -/
abbrev ImageMap := Bytes → Option (Option Image)

namespace ImageMap

def erase (m : ImageMap) (id : Bytes) : ImageMap := Function.update m id none

/-- `std::map::insert`, which keeps the entry that is there. -/
def insert (m : ImageMap) (id : Bytes) (image : Option Image) : ImageMap :=
  if (m id).isSome then m else Function.update m id (some image)

def getCachedImage (m : ImageMap) (id : Bytes) : Option Image := (m id).join

end ImageMap

namespace ImageInfo

def empty : ImageInfo := { id := kEmptyId, reps := [], internal := true }

/-- `1.0f`. -/
def create1x (id path_1x : Bytes) (internal : Bool) : ImageInfo :=
  { id, reps := [⟨path_1x, 0x3f800000⟩], internal }

end ImageInfo

/-! ### Reading the files -/

namespace ImageCache

/-- What follows the last dot. -/
def getFileExtension (path : Bytes) : Bytes :=
  if path.contains 46 then afterLast 46 path else []

def getImageType (path : Bytes) : ImageType :=
  let ext := (getFileExtension path).map toLower
  if ext = lit "png" then .png
  else if ext = lit "jpg" ∨ ext = lit "jpeg" then .jpeg
  else .none

/-- The two overloads of `LoadImageContents`. `read` reads a file or a resource. A representation
that cannot be loaded ends the loop, with what it has got so far. -/
def loadImageContents (read : Bytes → Bool → Option Bytes) (internal : Bool) :
    List ImageRep → List RepContent
  | [] => []
  | rep :: reps =>
    let type := getImageType rep.path
    if type = .none then []
    else
      match read rep.path internal with
      | none | some [] => []
      | some contents =>
        ⟨type, rep.scaleFactor, contents⟩ :: loadImageContents read internal reps

/-- The image exists already or is intentionally empty. -/
def skip (info : ImageInfo) (image : Option Image) : Bool := image.isSome || info.id == kEmptyId

def loadMissing (read : Bytes → Bool → Option Bytes) (l : List (ImageInfo × Option Image)) :
    List ImageContent :=
  l.map fun (info, image) =>
    if skip info image then { image } else { contents := loadImageContents read info.internal info.reps }

/-- The loads of `LoadMissing`, in order. -/
def loads (request : Nat) : Nat → List (ImageInfo × Option Image) → List Load
  | _, [] => []
  | i, (info, image) :: l =>
    if skip info image then loads request (i + 1) l
    else ⟨info.id, request, i⟩ :: loads request (i + 1) l

def createImage (addRep : RepContent → Bool) (load : Load) (contents : List RepContent) : Option Image :=
  if contents = [] then none
  else if contents.all fun rep => rep.type != .none && addRep rep then some ⟨load, contents⟩
  else none

/-! ### The map -/

structure Lookup where
  map : ImageMap
  images : List (Option Image)
  missing : Bool

/-- The loop of `LoadImages`. -/
def lookUp (m : ImageMap) : List ImageInfo → Lookup
  | [] => ⟨m, [], false⟩
  | info :: l =>
    if info.id = kEmptyId then
      let r := lookUp m l
      { r with images := none :: r.images }
    else
      match m info.id with
      | some image =>
        if info.forceReload then
          let r := lookUp (m.erase info.id) l
          { r with images := none :: r.images, missing := true }
        else
          let r := lookUp m l
          { r with images := image :: r.images }
      | none =>
        let r := lookUp m l
        { r with images := none :: r.images, missing := true }

structure Update where
  map : ImageMap
  images : List (Option Image)
  created : List (Load × Option Image)

/-- The loop of `UpdateCache`. -/
def update (addRep : RepContent → Bool) (request : Nat) :
    Nat → ImageMap → List (ImageInfo × ImageContent) → Update
  | _, m, [] => ⟨m, [], []⟩
  | i, m, (info, content) :: l =>
    if skip info content.image then
      let r := update addRep request (i + 1) m l
      { r with images := content.image :: r.images }
    else
      let load : Load := ⟨info.id, request, i⟩
      let image := createImage addRep load content.contents
      let r := update addRep request (i + 1) (m.insert info.id image) l
      { r with images := image :: r.images, created := (load, image) :: r.created }

end ImageCache

/-! ### The threads -/

inductive ImageTask
  | loadImages (request : Nat) (info : List ImageInfo)
  | updateCache (request : Nat) (info : List ImageInfo) (contents : List ImageContent)

/-- The entries of a request, with the images it has been handed; the others are to be loaded. -/
def ImageTask.handed : ImageTask → List (ImageInfo × Option Image)
  | .loadImages _ _ => []
  | .updateCache _ info contents => info.zip (contents.map ImageContent.image)

def ImageTask.ticket : ImageTask → List ImageInfo × Nat
  | .loadImages request info | .updateCache request info _ => (info, request)

/-- `LoadMissing`, on the FILE thread. -/
structure FileTask where
  request : Nat
  info : List ImageInfo
  images : List (Option Image)

def FileTask.handed (t : FileTask) : List (ImageInfo × Option Image) := t.info.zip t.images

def FileTask.ticket (t : FileTask) : List ImageInfo × Nat := (t.info, t.request)

/-- A callback that has run, and the map at that moment. -/
structure Answer where
  request : Nat
  info : List ImageInfo
  images : List (Option Image)
  map : ImageMap

def Answer.ticket (a : Answer) : List ImageInfo × Nat := (a.info, a.request)

structure ImageCache where
  imageMap : ImageMap := fun _ => none
  uiQueue : List ImageTask := []
  fileQueue : List FileTask := []
  requests : List (List ImageInfo) := []
  answers : List Answer := []
  /-- The loads that have been started, and those that have made an image, or NULL. -/
  started : List Load := []
  created : List (Load × Option Image) := []

namespace ImageCache

/-- `LoadImages` on the UI thread. -/
def loadImages (s : ImageCache) (request : Nat) (info : List ImageInfo) : ImageCache :=
  let r := lookUp s.imageMap info
  if r.missing then
    { s with imageMap := r.map, fileQueue := s.fileQueue ++ [⟨request, info, r.images⟩] }
  else { s with imageMap := r.map, answers := s.answers ++ [⟨request, info, r.images, r.map⟩] }

def updateCache (addRep : RepContent → Bool) (s : ImageCache) (request : Nat) (info : List ImageInfo)
    (contents : List ImageContent) : ImageCache :=
  let r := update addRep request 0 s.imageMap (info.zip contents)
  { s with
    imageMap := r.map
    answers := s.answers ++ [⟨request, info, r.images, r.map⟩]
    created := s.created ++ r.created }

def runFileTask (s : ImageCache) (read : Bytes → Bool → Option Bytes) (t : FileTask) : ImageCache :=
  let l := t.info.zip t.images
  { s with
    uiQueue := s.uiQueue ++ [.updateCache t.request t.info (loadMissing read l)]
    started := s.started ++ loads t.request 0 l }

inductive Event
  /-- A call of `LoadImages`, on the UI thread or on another. -/
  | loadImages (onUI : Bool) (info : List ImageInfo)
  | runUi
  /-- The files are read as they are when the task runs. -/
  | runFile (read : Bytes → Bool → Option Bytes)

def runUiTask (addRep : RepContent → Bool) (s : ImageCache) : ImageTask → ImageCache
  | .loadImages request info => s.loadImages request info
  | .updateCache request info contents => s.updateCache addRep request info contents

def step (addRep : RepContent → Bool) (s : ImageCache) : Event → Option ImageCache
  | .loadImages onUI info =>
    let request := s.requests.length
    let s := { s with requests := s.requests ++ [info] }
    some (if onUI then s.loadImages request info
      else { s with uiQueue := s.uiQueue ++ [.loadImages request info] })
  | .runUi =>
    match s.uiQueue with
    | [] => none
    | t :: q => some ({ s with uiQueue := q }.runUiTask addRep t)
  | .runFile read =>
    match s.fileQueue with
    | [] => none
    | t :: q => some ({ s with fileQueue := q }.runFileTask read t)

/-! ### When it is coherent -/

/-- The entries of the requests in flight, each with the image it has been handed. -/
def inFlight (s : ImageCache) : List (ImageInfo × Option Image) :=
  s.uiQueue.flatMap ImageTask.handed ++ s.fileQueue.flatMap FileTask.handed

def held (l : List (ImageInfo × Option Image)) : List Bytes :=
  (l.filter fun p => p.2.isSome).map fun p => p.1.id

/-- `LoadImages` erases no entry whose image is held by a request in flight, or by itself. -/
def spares (held : List Bytes) (m : ImageMap) : List ImageInfo → Bool
  | [] => true
  | info :: l =>
    if info.id = kEmptyId then spares held m l
    else
      match m info.id with
      | some image =>
        if info.forceReload then !held.contains info.id && spares held (m.erase info.id) l
        else spares (if image.isSome then info.id :: held else held) m l
      | none => spares held m l

/-- `UpdateCache` finds no entry for an image it inserts, unless the entry is NULL and so is the
image. -/
def inserts (addRep : RepContent → Bool) (request : Nat) :
    Nat → ImageMap → List (ImageInfo × ImageContent) → Bool
  | _, _, [] => true
  | i, m, (info, content) :: l =>
    if skip info content.image then inserts addRep request (i + 1) m l
    else
      let image := createImage addRep ⟨info.id, request, i⟩ content.contents
      (match m info.id with
        | some old => old.isNone && image.isNone
        | none => true) &&
      inserts addRep request (i + 1) (m.insert info.id image) l

def Ready (addRep : RepContent → Bool) (s : ImageCache) : Event → Prop
  | .loadImages onUI info => onUI = true → spares (held s.inFlight) s.imageMap info = true
  | .runUi =>
    match s.uiQueue with
    | [] => True
    | .loadImages _ info :: _ => spares (held s.inFlight) s.imageMap info = true
    | .updateCache request info contents :: _ =>
      inserts addRep request 0 s.imageMap (info.zip contents) = true
  | .runFile _ => True

instance (addRep : RepContent → Bool) (s : ImageCache) : (e : Event) → Decidable (Ready addRep s e)
  | .loadImages onUI info =>
    inferInstanceAs (Decidable (onUI = true → spares (held s.inFlight) s.imageMap info = true))
  | .runUi =>
    match h : s.uiQueue with
    | [] => isTrue (by unfold Ready; rw [h]; trivial)
    | .loadImages _ info :: _ =>
      decidable_of_iff (spares (held s.inFlight) s.imageMap info = true) (by unfold Ready; rw [h])
    | .updateCache request info contents :: _ =>
      decidable_of_iff (inserts addRep request 0 s.imageMap (info.zip contents) = true)
        (by unfold Ready; rw [h])
  | .runFile _ => isTrue trivial

end ImageCache

end NplBrowser
