import Mathlib.Algebra.BigOperators.Group.Multiset.Basic
import Mathlib.Data.List.AList
import Mathlib.Tactic.Abel

/-! Documents of a collection as Dart sees them: maps from field names to values,
some of which hold lists of rows. `update` replaces one field; the rows of all
lists together form the contents of the document. -/

namespace Firestore

/-- What a caller can catch: a text that is no date, a value of the wrong type, a read
that failed, a commit refused after the last retry, and an update of a document that
does not exist. -/
inductive Exception where
  | formatException
  | typeError
  | unavailable
  | aborted
  | invalidArgument
  deriving DecidableEq, Repr

inductive Value (ρ : Type*) where
  | null
  | int (n : Int64)
  | string (s : String)
  | list (rows : List ρ)
  /-- a value of another type, such as a double or a map -/
  | other (text : String)
  deriving DecidableEq

/-- A value in a map that stands in a list. -/
inductive Scalar where
  | null
  | bool (b : Bool)
  | int (n : Int64)
  | string (s : String)
  /-- a value of another type, such as a double or a timestamp -/
  | other (text : String)
  deriving DecidableEq

namespace Scalar

def bool? : Scalar → Option Bool
  | .bool b => some b
  | _ => none

def int? : Scalar → Option Int64
  | .int n => some n
  | _ => none

def string? : Scalar → Option String
  | .string s => some s
  | _ => none

end Scalar

/-- `data[key] ?? fallback` for a parameter of the type that `cast` tells -/
def castOr {α : Type} (cast : Scalar → Option α) (fallback : α) : Option Scalar → Except Exception α
  | none | some .null => .ok fallback
  | some value => (cast value).elim (.error .typeError) .ok

theorem castOr_string (fallback : String) (value : Option String) :
    castOr Scalar.string? fallback (some (value.elim .null .string)) = .ok (value.getD fallback) := by
  cases value <;> rfl

theorem castOr_int (fallback : Int64) (value : Option Int64) :
    castOr Scalar.int? fallback (some (value.elim .null .int)) = .ok (value.getD fallback) := by
  cases value <;> rfl

theorem castOr_bool (fallback : Bool) (value : Option Bool) :
    castOr Scalar.bool? fallback (some (value.elim .null .bool)) = .ok (value.getD fallback) := by
  cases value <;> rfl

/-- What may stand in a list, whoever has written it: a map, or anything else. -/
inductive Element where
  | map (data : AList fun _ : String => Scalar)
  | other (text : String)

/-- Rows of type `ρ` in which models of type `α` are stored. A row that stands for no model
cannot be read. -/
class Codec (ρ α : Type) where
  toJson : α → ρ
  fromMap : ρ → Except Exception α
  fromMap_toJson (model : α) : fromMap (toJson model) = .ok model

abbrev Document (ρ : Type*) := AList fun _ : String => Value ρ

/-- The argument of `transaction.update` with one field. -/
structure Update (ρ : Type*) where
  field : String
  value : Value ρ

variable {ρ : Type*}

def Update.apply (u : Update ρ) (d : Document ρ) : Document ρ := d.insert u.field u.value

/-- `(docData?[field] as int?) ?? 0` -/
def intField (doc : Option (Document ρ)) (field : String) : Except Exception Int64 :=
  match doc.bind (·.lookup field) with
  | none | some .null => .ok 0
  | some (.int n) => .ok n
  | some _ => .error .typeError

/-- `docData[field] ?? []` as a list, also `[]` when the document or the field is missing -/
def listField (doc : Option (Document ρ)) (field : String) : Except Exception (List ρ) :=
  match doc.bind (·.lookup field) with
  | none | some .null => .ok []
  | some (.list rows) => .ok rows
  | some _ => .error .typeError

def Value.rows : Value ρ → List ρ
  | .list rows => rows
  | _ => []

def rowsAt (d : Document ρ) (field : String) : List ρ := (d.lookup field).elim [] Value.rows

/-- All rows of the document, as a bag. -/
def rows (d : Document ρ) : Multiset ρ := (d.entries.flatMap fun e => e.2.rows : List ρ)

theorem intField_insert (d : Document ρ) (field : String) (n : Int64) :
    intField (some (d.insert field (.int n))) field = .ok n := by
  simp [intField]

theorem listField_eq_ok {d : Document ρ} {field : String} {l : List ρ}
    (h : listField (some d) field = .ok l) : rowsAt d field = l := by
  simp only [listField, Option.bind_some] at h
  rw [rowsAt]
  split at h <;> simp_all [Value.rows]

theorem listField_list {d : Document ρ} {field : String} {l : List ρ}
    (h : d.lookup field = some (.list l)) : listField (some d) field = .ok l := by
  simp [listField, h]

theorem listField_none {d : Document ρ} {field : String} (h : d.lookup field = none) :
    listField (some d) field = .ok [] := by
  simp [listField, h]

@[simp] theorem rowsAt_insert (d : Document ρ) (field : String) (v : Value ρ) :
    rowsAt (d.insert field v) field = v.rows := by
  simp [rowsAt]

theorem rows_insert_erase (d : Document ρ) (field : String) (v : Value ρ) :
    rows (d.insert field v) = v.rows + rows (d.erase field) := by
  rw [rows, AList.entries_insert, List.flatMap_cons, ← Multiset.coe_add]
  rfl

theorem rows_erase (d : Document ρ) (field : String) :
    rows d = rowsAt d field + rows (d.erase field) := by
  by_cases hmem : field ∈ d
  · obtain ⟨v, l₁, l₂, hnot, hentries, herase⟩ := List.exists_of_kerase (AList.mem_keys.1 hmem)
    have hlookup : d.lookup field = some v := by
      rw [← Option.mem_def, AList.mem_lookup_iff, hentries]
      simp
    have hrest : (d.erase field).entries = l₁ ++ l₂ := herase
    rw [rowsAt, hlookup, rows, rows, hentries, hrest]
    simp only [Option.elim_some, List.flatMap_append, List.flatMap_cons, ← Multiset.coe_add]
    abel
  · have hlookup : d.lookup field = none := AList.lookup_eq_none.2 hmem
    have herase : (d.erase field).entries = d.entries :=
      List.kerase_of_notMem_keys fun h => hmem (AList.mem_keys.2 h)
    rw [rowsAt, hlookup, rows, rows, herase]
    simp

/-- Replacing a field exchanges its rows and keeps all others. -/
theorem rows_insert (d : Document ρ) (field : String) (v : Value ρ) :
    rows (d.insert field v) + rowsAt d field = rows d + v.rows := by
  rw [rows_insert_erase, rows_erase d field]
  abel

/-- One more row at the end of a list is one more row of the document. -/
theorem rows_append (d : Document ρ) (field : String) (row : ρ) :
    rows (d.insert field (.list (rowsAt d field ++ [row]))) = row ::ₘ rows d := by
  rw [rows_insert_erase, rows_erase d field, ← Multiset.singleton_add]
  simp only [Value.rows, ← Multiset.coe_add, Multiset.coe_singleton]
  abel

theorem rowsAt_of_mem {d : Document ρ} {e : Σ _ : String, Value ρ} (h : e ∈ d.entries) :
    rowsAt d e.1 = e.2.rows := by
  have hlookup : d.lookup e.1 = some e.2 := AList.mem_lookup_iff.2 h
  rw [rowsAt, hlookup]
  rfl

/-- The rows of the document, list by list. -/
theorem rows_eq_flatMap_keys (d : Document ρ) : rows d = (d.keys.flatMap (rowsAt d) : List ρ) := by
  rw [rows, AList.keys, List.keys, List.flatMap_map]
  exact congrArg _ (List.flatMap_congr fun e he => (rowsAt_of_mem he).symm)

/-- The rows outside of a field, list by list. -/
theorem rows_erase_eq_flatMap (d : Document ρ) (field : String) :
    rows (d.erase field) = ((d.keys.filter (· ≠ field)).flatMap (rowsAt d) : List ρ) := by
  rw [rows_eq_flatMap_keys, AList.keys_erase, d.keys_nodup.erase_eq_filter]
  have hfilter : d.keys.filter (· != field) = d.keys.filter (· ≠ field) :=
    List.filter_congr fun key _ => by rw [Bool.eq_iff_iff]; simp
  rw [hfilter]
  refine congrArg _ (List.flatMap_congr fun key hkey => ?_)
  have hne : key ≠ field := by simpa using (List.mem_filter.1 hkey).2
  rw [rowsAt, AList.lookup_erase_ne hne]
  rfl

/-- One more row at the end of another list is one more row outside of the field. -/
theorem rows_erase_append (d : Document ρ) {field other : String} (hne : other ≠ field) (row : ρ) :
    rows ((d.insert other (.list (rowsAt d other ++ [row]))).erase field) =
      row ::ₘ rows (d.erase field) := by
  have hrows := rows_append d other row
  have hfield : rowsAt (d.insert other (.list (rowsAt d other ++ [row]))) field = rowsAt d field := by
    rw [rowsAt, AList.lookup_insert_ne hne.symm]
    rfl
  rw [rows_erase _ field, hfield, rows_erase d field, ← Multiset.add_cons] at hrows
  exact add_left_cancel hrows

section Map

variable {σ : Type*} (f : ρ → σ)

/-- The value with the rows of its list rewritten. -/
def Value.map : Value ρ → Value σ
  | .null => .null
  | .int n => .int n
  | .string s => .string s
  | .list rows => .list (rows.map f)
  | .other text => .other text

def Document.map (d : Document ρ) : Document σ :=
  ⟨d.entries.map (Sigma.map id fun _ => Value.map f), d.nodupKeys.map₂ _ _⟩

def Update.map (u : Update ρ) : Update σ := ⟨u.field, u.value.map f⟩

theorem entries_map (d : Document ρ) :
    (d.map f).entries = d.entries.map fun e => ⟨e.1, e.2.map f⟩ := rfl

@[simp] theorem lookup_map (d : Document ρ) (field : String) :
    (d.map f).lookup field = (d.lookup field).map (Value.map f) :=
  List.dlookup_map₂ field

@[simp] theorem keys_map (d : Document ρ) : (d.map f).keys = d.keys := List.map₂_keys _ _

theorem map_insert (d : Document ρ) (field : String) (v : Value ρ) :
    Document.map f (d.insert field v) = (d.map f).insert field (v.map f) := by
  refine AList.ext ?_
  rw [entries_map, AList.entries_insert, AList.entries_insert, entries_map, List.map_cons,
    List.kerase, List.kerase, List.eraseP_map]
  rfl

theorem apply_map (u : Update ρ) (d : Document ρ) :
    Document.map f (u.apply d) = (u.map f).apply (d.map f) :=
  map_insert f d u.field u.value

theorem listField_map (doc : Option (Document ρ)) (field : String) :
    listField (doc.map (Document.map f)) field = (listField doc field).map (List.map f) := by
  cases doc with
  | none => rfl
  | some d =>
    simp only [listField, Option.map_some, Option.bind_some, lookup_map]
    cases d.lookup field with
    | none => rfl
    | some v => cases v <;> rfl

end Map

/-- A map from names to lists, in the order in which its names were added. -/
abbrev Records (α : Type*) := AList fun _ : String => List α

namespace Records

/-- The library's instance is made by rewriting, so that `decide` cannot evaluate it. -/
instance {α : Type*} [DecidableEq α] : DecidableEq (Records α) := fun a b =>
  decidable_of_iff (a.entries = b.entries) AList.ext_iff.symm

variable {α : Type*}

/-- `Map.putIfAbsent` -/
def putIfAbsent (m : Records α) (key : String) (rows : List α) : Records α :=
  if h : key ∈ m then m
  else
    ⟨m.entries ++ [⟨key, rows⟩], by
      rw [List.nodupKeys_middle, List.append_nil, List.nodupKeys_cons]
      exact ⟨fun hk => h (AList.mem_keys.2 hk), m.nodupKeys⟩⟩

theorem entries_putIfAbsent {m : Records α} {key : String} (h : key ∉ m) (rows : List α) :
    (m.putIfAbsent key rows).entries = m.entries ++ [⟨key, rows⟩] := by
  rw [putIfAbsent, dif_neg h]

theorem lookup_putIfAbsent {m : Records α} {key : String} (h : key ∉ m) (rows : List α) (k : String) :
    (m.putIfAbsent key rows).lookup k = if k = key then some rows else m.lookup k := by
  refine Option.ext fun l => ?_
  rw [← Option.mem_def, AList.mem_lookup_iff, entries_putIfAbsent h, List.mem_append,
    List.mem_singleton, ← AList.mem_lookup_iff]
  by_cases hk : k = key
  · subst hk
    simp [AList.lookup_eq_none.2 h, eq_comm]
  · simp [hk]

def all (m : Records α) : List α := m.entries.flatMap fun e => e.2

theorem notMem_putIfAbsent {m : Records α} {key k : String} (h : key ∉ m) (rows : List α)
    (hne : k ≠ key) (hk : k ∉ m) : k ∉ m.putIfAbsent key rows := by
  rw [← AList.lookup_eq_none, lookup_putIfAbsent h, if_neg hne]
  exact AList.lookup_eq_none.2 hk

theorem all_putIfAbsent {m : Records α} {key : String} (h : key ∉ m) (rows : List α) :
    (m.putIfAbsent key rows).all = m.all ++ rows := by
  rw [all, entries_putIfAbsent h]
  simp [all]

/-- When every row is filed under its own key, the list under a key is the selection of
the rows with that key, in the same order. -/
theorem filter_all (m : Records α) (key : α → String)
    (hfiled : ∀ k rows, m.lookup k = some rows → ∀ row ∈ rows, key row = k) (k : String) :
    m.all.filter (fun row => decide (key row = k)) = (m.lookup k).getD [] := by
  obtain ⟨entries, hnodup⟩ := m
  simp only [all, AList.lookup] at hfiled ⊢
  induction entries with
  | nil => rfl
  | cons e entries ih =>
    obtain ⟨k', rows⟩ := e
    have hnodup' := List.nodupKeys_cons.1 hnodup
    have hrows : ∀ row ∈ rows, key row = k' := hfiled k' rows (List.dlookup_cons_eq ..)
    have htail : ∀ j js, entries.dlookup j = some js → ∀ row ∈ js, key row = j := by
      intro j js hj
      refine hfiled j js ?_
      have hne : j ≠ k' := by
        rintro rfl
        exact hnodup'.1 (List.dlookup_isSome.1 (by rw [hj]; rfl))
      rwa [List.dlookup_cons_ne _ _ hne]
    specialize ih hnodup'.2 htail
    rw [List.flatMap_cons, List.filter_append, ih]
    by_cases hk : k = k'
    · subst hk
      have hnone : entries.dlookup k = none := List.dlookup_eq_none.2 hnodup'.1
      have hself : rows.filter (fun row => decide (key row = k)) = rows :=
        List.filter_eq_self.2 fun row hrow => by simpa using hrows row hrow
      rw [List.dlookup_cons_eq, hself, hnone]
      simp
    · have hempty : rows.filter (fun row => decide (key row = k)) = [] := by
        refine List.filter_eq_nil_iff.2 fun row hrow => ?_
        rw [hrows row hrow]
        simpa using Ne.symm hk
      rw [List.dlookup_cons_ne _ _ hk, hempty, List.nil_append]

end Records

end Firestore
