import HomeBank.Spec.Common

/-! The records of `lib/models`: what a stored map may hold, what the decoders make of it, and
what the encoders write. The decoders take any value and throw on what they cannot use; a field
that is absent and one that is null are the same to them. -/

namespace HomeBank

open Firestore

/-- A job as it stands in a month list, when its fields have the types of `JobModel`. -/
structure JobMap where
  type : Option String
  note : Option String
  date : Option String
  point : Option Int64
  finish : Option Bool
  deriving DecidableEq

structure JobModel where
  type : String
  note : String
  date : String
  point : Int64
  finish : Bool
  deriving DecidableEq

/-- `detail` is no map, or one of its fields has another type than the model. -/
def JobModel.fromMap : Element → Except Exception JobModel
  | .map data => do
    let type ← castOr Scalar.string? "" (data.lookup "type")
    let note ← castOr Scalar.string? "" (data.lookup "note")
    let date ← castOr Scalar.string? "" (data.lookup "date")
    let point ← castOr Scalar.int? 0 (data.lookup "point")
    let finish ← castOr Scalar.bool? false (data.lookup "finish")
    return ⟨type, note, date, point, finish⟩
  | .other _ => .error .typeError

def JobModel.toJson (job : JobModel) : JobMap where
  type := some job.type
  note := some job.note
  date := some job.date
  point := some job.point
  finish := some job.finish

/-- The map with its keys. -/
def JobMap.toElement (data : JobMap) : Element :=
  .map ((∅ : AList fun _ : String => Scalar)
    |>.insert "finish" (data.finish.elim .null .bool)
    |>.insert "point" (data.point.elim .null .int)
    |>.insert "date" (data.date.elim .null .string)
    |>.insert "note" (data.note.elim .null .string)
    |>.insert "type" (data.type.elim .null .string))

/-- The map with the defaults of the decoder. -/
def JobMap.toModel (data : JobMap) : JobModel where
  type := data.type.getD ""
  note := data.note.getD ""
  date := data.date.getD ""
  point := data.point.getD 0
  finish := data.finish.getD false

/-- The decoder reads a map whose fields have its types, or are missing. -/
theorem JobModel.fromMap_toElement (data : JobMap) :
    JobModel.fromMap data.toElement = .ok data.toModel := by
  simp only [JobModel.fromMap, JobMap.toElement, AList.lookup_insert, AList.lookup_insert_ne, ne_eq,
    String.reduceEq, not_false_eq_true, castOr_string, castOr_int, castOr_bool]
  rfl

instance : Codec Element JobModel where
  toJson job := job.toJson.toElement
  fromMap := JobModel.fromMap
  fromMap_toJson job := JobModel.fromMap_toElement job.toJson

instance : Codec JobMap JobModel where
  toJson := JobModel.toJson
  fromMap data := JobModel.fromMap data.toElement
  fromMap_toJson job := JobModel.fromMap_toElement job.toJson

@[simp] theorem JobMap.toJson_eq (job : JobModel) : (Codec.toJson job : JobMap) = job.toJson := rfl

theorem JobMap.fromMap_eq (data : JobMap) : Codec.fromMap data = .ok data.toModel :=
  JobModel.fromMap_toElement data

/-- A record of points as it stands in a month list, when its fields have the types of
`PointModel`. -/
structure PointMap where
  type : Option String
  note : Option String
  date : Option String
  point : Option Int64
  total : Option Int64
  deriving DecidableEq

structure PointModel where
  type : String
  note : String
  date : String
  point : Int64
  total : Int64
  deriving DecidableEq

def PointModel.fromMap : Element → Except Exception PointModel
  | .map data => do
    let type ← castOr Scalar.string? "" (data.lookup "type")
    let note ← castOr Scalar.string? "" (data.lookup "note")
    let date ← castOr Scalar.string? "" (data.lookup "date")
    let point ← castOr Scalar.int? 0 (data.lookup "point")
    let total ← castOr Scalar.int? 0 (data.lookup "total")
    return ⟨type, note, date, point, total⟩
  | .other _ => .error .typeError

def PointModel.toJson (model : PointModel) : PointMap where
  type := some model.type
  note := some model.note
  date := some model.date
  point := some model.point
  total := some model.total

def PointMap.toElement (data : PointMap) : Element :=
  .map ((∅ : AList fun _ : String => Scalar)
    |>.insert "total" (data.total.elim .null .int)
    |>.insert "point" (data.point.elim .null .int)
    |>.insert "date" (data.date.elim .null .string)
    |>.insert "note" (data.note.elim .null .string)
    |>.insert "type" (data.type.elim .null .string))

def PointMap.toModel (data : PointMap) : PointModel where
  type := data.type.getD ""
  note := data.note.getD ""
  date := data.date.getD ""
  point := data.point.getD 0
  total := data.total.getD 0

@[simp] theorem PointMap.toModel_toJson (model : PointModel) : model.toJson.toModel = model := rfl

theorem PointModel.toJson_injective : Function.Injective toJson :=
  Function.LeftInverse.injective PointMap.toModel_toJson

theorem PointModel.fromMap_toElement (data : PointMap) :
    PointModel.fromMap data.toElement = .ok data.toModel := by
  simp only [PointModel.fromMap, PointMap.toElement, AList.lookup_insert, AList.lookup_insert_ne,
    ne_eq, String.reduceEq, not_false_eq_true, castOr_string, castOr_int]
  rfl

instance : Codec Element PointModel where
  toJson model := model.toJson.toElement
  fromMap := PointModel.fromMap
  fromMap_toJson model := PointModel.fromMap_toElement model.toJson

instance : Codec PointMap PointModel where
  toJson := PointModel.toJson
  fromMap data := PointModel.fromMap data.toElement
  fromMap_toJson model := PointModel.fromMap_toElement model.toJson

theorem PointMap.fromMap_eq (data : PointMap) : Codec.fromMap data = .ok data.toModel :=
  PointModel.fromMap_toElement data

structure UserModel where
  uid : String := ""
  parent : Option String := none
  avatarSvg : String := ""
  email : String := ""
  name : String := ""
  profileImageUrl : Option String := none
  loggedInVia : Option String := none
  birthday : Option String := none
  point : Int64 := 0
  deriving DecidableEq

/-- `parent == null || parent!.isEmpty` -/
def UserModel.isParent (user : UserModel) : Bool := user.parent.all String.isEmpty

abbrev JobDoc := Document JobMap

abbrev PointDoc := Document PointMap

/-- No field of a users document holds a list. -/
abbrev UserDoc := Document Empty

/-- The three collections, by email, with job and point documents whose lists hold rows of some
types. -/
structure Collections (J P : Type) where
  users : String → Option UserDoc
  point : String → Option (Document P)
  job : String → Option (Document J)

/-- The collections as the app fills them: their rows are maps of the right types. -/
abbrev Db := Collections JobMap PointMap

/-- A document that holds only its parent field. -/
def parentOnly {ρ : Type} (parent : String) : Document ρ :=
  (∅ : Document ρ).insert "parent" (.string parent)

/-- The account of a child in the runs below. -/
def sampleUsers : UserDoc := (∅ : UserDoc).insert "point" (.int 0)

def samplePoint : PointDoc := parentOnly "parent@example.com"

/-- `data[key] as List<dynamic>` -/
def asList {ρ : Type} : Option (Value ρ) → Except Exception (List ρ)
  | some (.list rows) => .ok rows
  | _ => .error .typeError

/-- The loop of `getJobRecord` and `getPointRecord` over the keys of the document. -/
def readKeys {ρ α : Type} (fromMap : ρ → Except Exception α) (data : Document ρ) :
    List String → Records α → Except Exception (Records α)
  | [], list => .ok list
  | key :: keys, list =>
    if key ≠ "parent" then do
      let details ← asList (data.lookup key)
      let tmp ← details.mapM fromMap
      readKeys fromMap data keys (list.putIfAbsent key tmp)
    else readKeys fromMap data keys list

def readRecords {ρ α : Type} (fromMap : ρ → Except Exception α) :
    Option (Document ρ) → Except Exception (Records α)
  | none => .ok ∅
  | some data => readKeys fromMap data data.keys.reverse ∅

end HomeBank
