/-
RunControl/Resource.lean

What a request to the backend is about: the six things that can be fetched and
the five commands.  `PerResource α` is a table with one value of `α` for each;
two tables are equal if they agree everywhere (`PerResource.ext`).
-/

namespace RunControl

/-- What a request to the backend is about. -/
inductive Resource where
  | interfaces
  | systemConfig
  | devices
  | riskProfiles
  | systemVersion
  | systemStatus
  | startRun
  | stopRun
  | createDevice
  | editDevice
  | deleteDevice
  deriving DecidableEq, Inhabited

namespace Resource

/-- Every resource, in the order in which they are listed. -/
def all : List Resource :=
  [interfaces, systemConfig, devices, riskProfiles, systemVersion, systemStatus,
    startRun, stopRun, createDevice, editDevice, deleteDevice]

/-- Every resource is in the list. -/
theorem mem_all (r : Resource) : r ∈ all := by
  cases r <;> decide

/-- The name of a resource in messages. -/
def name : Resource → String
  | interfaces => "interfaces"
  | systemConfig => "system config"
  | devices => "devices"
  | riskProfiles => "risk profiles"
  | systemVersion => "system version"
  | systemStatus => "system status"
  | startRun => "start testrun"
  | stopRun => "stop testrun"
  | createDevice => "create device"
  | editDevice => "edit device"
  | deleteDevice => "delete device"

/-- The resource with a name. -/
def ofName? (s : String) : Option Resource :=
  all.find? fun r => r.name == s

@[simp] theorem ofName?_name (r : Resource) : ofName? r.name = some r := by
  cases r <;> decide

/-- The place of a resource in the list of all. -/
def index : Resource → Fin 11
  | interfaces => 0
  | systemConfig => 1
  | devices => 2
  | riskProfiles => 3
  | systemVersion => 4
  | systemStatus => 5
  | startRun => 6
  | stopRun => 7
  | createDevice => 8
  | editDevice => 9
  | deleteDevice => 10

theorem index_inj {r r' : Resource} (h : r.index = r'.index) : r = r' := by
  cases r <;> cases r' <;> first | rfl | exact absurd h (by decide)

/-- Every place is the one of a resource. -/
theorem exists_index (i : Fin 11) : ∃ r : Resource, r.index = i := by
  have h : ∀ i : Fin 11, ∃ r ∈ all, r.index = i := by decide
  obtain ⟨r, _, hr⟩ := h i
  exact ⟨r, hr⟩

end Resource

/-! ### Tables -/

/-- A table with a value for every resource. -/
structure PerResource (α : Type) where
  /-- The values, in the order of the resources. -/
  cells : Vector α 11
  deriving DecidableEq

namespace PerResource

variable {α : Type}

/-- The table that has the same value everywhere. -/
def const (a : α) : PerResource α where
  cells := Vector.replicate 11 a

/-- The value of a resource. -/
def get (t : PerResource α) (r : Resource) : α :=
  t.cells[r.index]

/-- The table with another value for one resource. -/
def set (t : PerResource α) (r : Resource) (a : α) : PerResource α where
  cells := t.cells.set r.index a

instance [BEq α] : BEq (PerResource α) := ⟨fun s t => s.cells == t.cells⟩

instance [BEq α] [LawfulBEq α] : LawfulBEq (PerResource α) where
  rfl {s} := beq_self_eq_true s.cells
  eq_of_beq {s t} h := congrArg mk (eq_of_beq (a := s.cells) (b := t.cells) h)

instance [Inhabited α] : Inhabited (PerResource α) := ⟨const default⟩

@[ext] theorem ext {s t : PerResource α} (h : ∀ r, s.get r = t.get r) : s = t := by
  obtain ⟨s⟩ := s
  obtain ⟨t⟩ := t
  congr
  refine Vector.ext fun i hi => ?_
  obtain ⟨r, hr⟩ := Resource.exists_index ⟨i, hi⟩
  have := h r
  simpa [get, hr] using this

@[simp] theorem get_const (a : α) (r : Resource) : (const a).get r = a := by
  simp [const, get]

@[simp] theorem get_set_self (t : PerResource α) (r : Resource) (a : α) :
    (t.set r a).get r = a := by
  simp [set, get]

theorem get_set_of_ne (t : PerResource α) {r r' : Resource} (h : r' ≠ r) (a : α) :
    (t.set r a).get r' = t.get r' := by
  have hi : r.index.val ≠ r'.index.val := fun hi =>
    h (Resource.index_inj (Fin.ext hi)).symm
  simp [set, get, hi]

theorem get_set (t : PerResource α) (r r' : Resource) (a : α) :
    (t.set r a).get r' = if r' = r then a else t.get r' := by
  split
  · next h => rw [h, get_set_self]
  · next h => rw [get_set_of_ne t h]

end PerResource

end RunControl
