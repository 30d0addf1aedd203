import RoboBand.Data.OrderedMap

namespace RoboBand.Data

/-! Maps whose values are leaves or maps again, and the deep merge of two of
them. -/

inductive Node (Key α : Type*) where
  | leaf (value : α)
  | table (entries : List (Key × Node Key α))

abbrev Entries (Key α : Type*) := List (Key × Node Key α)

variable {Key α : Type*}

mutual

def Node.depth : Node Key α → Nat
  | .leaf _ => 0
  | .table entries => entriesDepth entries + 1

def entriesDepth : Entries Key α → Nat
  | [] => 0
  | (_, node) :: rest => max node.depth (entriesDepth rest)

end

theorem depth_le_entriesDepth {entries : Entries Key α}
    {entry : Key × Node Key α} (member : entry ∈ entries) :
    entry.2.depth ≤ entriesDepth entries := by
  induction entries with
  | nil => cases member
  | cons head rest ih =>
      rcases List.mem_cons.mp member with rfl | later
      · exact le_max_left _ _
      · exact (ih later).trans (le_max_right _ _)

variable [LinearOrder Key]

inductive Node.Valid : Node Key α → Prop
  | leaf (value : α) : Valid (.leaf value)
  | table {entries : Entries Key α} (ordered : Ordered entries)
      (children : ∀ entry ∈ entries, Valid entry.2) : Valid (.table entries)

namespace Node.Valid

variable {entries : Entries Key α}

theorem ordered (valid : (Node.table entries).Valid) : Ordered entries := by
  cases valid with
  | table ordered _ => exact ordered

theorem of_mem (valid : (Node.table entries).Valid)
    {entry : Key × Node Key α} (member : entry ∈ entries) : entry.2.Valid := by
  cases valid with
  | table _ children => exact children entry member

theorem of_lookup (valid : (Node.table entries).Valid) {key : Key}
    {node : Node Key α} (found : entries.lookup key = some node) :
    node.Valid :=
  valid.of_mem (mem_of_lookup found)

theorem insertOrAssign (valid : (Node.table entries).Valid) (key : Key)
    {node : Node Key α} (nodeValid : node.Valid) :
    (Node.table (insertOrAssign key node entries)).Valid := by
  refine .table (valid.ordered.insertOrAssign key node) ?_
  intro entry member
  rcases mem_of_mem_insertOrAssign member with rfl | earlier
  · exact nodeValid
  · exact valid.of_mem earlier

end Node.Valid

theorem Node.Valid.nesting_induction
    {motive : ∀ entries : Entries Key α, (Node.table entries).Valid → Prop}
    (step : ∀ entries (valid : (Node.table entries).Valid),
      (∀ key inner (found : entries.lookup key = some (.table inner)),
        motive inner (valid.of_lookup found)) → motive entries valid)
    (entries : Entries Key α) (valid : (Node.table entries).Valid) :
    motive entries valid := by
  suffices general : ∀ {node : Node Key α} (nodeValid : node.Valid) entries
      (same : node = .table entries), motive entries (same ▸ nodeValid) from
    general valid entries rfl
  intro node nodeValid
  induction nodeValid with
  | leaf value =>
      intro entries same
      cases same
  | @table inner ordered children ih =>
      intro entries same
      cases same
      refine step inner (.table ordered children) ?_
      intro key deeper found
      exact ih (key, .table deeper) (mem_of_lookup found) deeper rfl

theorem entriesDepth_lt_of_lookup {entries inner : Entries Key α} {key : Key}
    (found : entries.lookup key = some (.table inner)) :
    entriesDepth inner < entriesDepth entries := by
  have bound := depth_le_entriesDepth (mem_of_lookup found)
  rwa [Node.depth] at bound

/-- A map of maps whose keys are in order at every depth. -/
@[ext] structure Table (Key α : Type*) [LinearOrder Key] where
  entries : Entries Key α
  valid : (Node.table entries).Valid

namespace Table

def empty : Table Key α := ⟨[], .table ordered_nil (by simp)⟩

def set (table : Table Key α) (key : Key) (value : α) : Table Key α :=
  ⟨insertOrAssign key (.leaf value) table.entries,
    table.valid.insertOrAssign key (.leaf value)⟩

def setTable (table : Table Key α) (key : Key) (inner : Table Key α) :
    Table Key α :=
  ⟨insertOrAssign key (.table inner.entries) table.entries,
    table.valid.insertOrAssign key inner.valid⟩

end Table

mutual

/-- What a user's node makes of the node below it. -/
def override : Node Key α → Option (Node Key α) → Node Key α
  | .table user, some (.table default) => .table (mergeEntries user default)
  | value, _ => value

def mergeEntries : Entries Key α → Entries Key α → Entries Key α
  | [], default => default
  | (key, value) :: rest, default =>
      insertOrAssign key (override value (default.lookup key))
        (mergeEntries rest default)

end

@[simp] theorem override_table (user default : Entries Key α) :
    override (.table user) (some (.table default)) =
      .table (mergeEntries user default) := by
  rw [override]

theorem override_of_not_tables {value : Node Key α}
    {below : Option (Node Key α)}
    (different : ∀ user default,
      value = .table user → below ≠ some (.table default)) :
    override value below = value := by
  unfold override
  split
  · exact absurd rfl (different _ _ rfl)
  · rfl

theorem lookup_mergeEntries (user default : Entries Key α) (key : Key) :
    (mergeEntries user default).lookup key =
      match user.lookup key with
      | some value => some (override value (default.lookup key))
      | none => default.lookup key := by
  induction user with
  | nil => rw [mergeEntries]; rfl
  | cons head rest ih =>
      rw [mergeEntries]
      by_cases here : key = head.1
      · rw [here, lookup_insertOrAssign_self, List.lookup_cons_self]
      · rw [lookup_insertOrAssign_of_ne _ here, lookup_cons_of_ne here, ih]

theorem lookup_mergeEntries_of_some {user : Entries Key α} {key : Key}
    {value : Node Key α} (found : user.lookup key = some value)
    (default : Entries Key α) :
    (mergeEntries user default).lookup key =
      some (override value (default.lookup key)) := by
  rw [lookup_mergeEntries, found]

theorem lookup_mergeEntries_of_none {user : Entries Key α} {key : Key}
    (missing : user.lookup key = none) (default : Entries Key α) :
    (mergeEntries user default).lookup key = default.lookup key := by
  rw [lookup_mergeEntries, missing]

theorem valid_override {value : Node Key α} (valueValid : value.Valid)
    {below : Option (Node Key α)} (belowValid : ∀ node ∈ below, node.Valid) :
    (override value below).Valid := by
  induction valueValid generalizing below with
  | leaf value =>
      rw [override_of_not_tables (fun _ _ table => by cases table)]
      exact .leaf value
  | @table user ordered children ih =>
      match below, belowValid with
      | none, _ | some (.leaf _), _ =>
          rw [override_of_not_tables (fun _ _ _ table => by cases table)]
          exact .table ordered children
      | some (.table default), belowValid =>
          rw [override_table]
          have defaultValid : (Node.table default).Valid := belowValid _ rfl
          clear ordered children
          induction user with
          | nil => rwa [mergeEntries]
          | cons head rest restIh =>
              rw [mergeEntries]
              refine (restIh fun entry member =>
                ih entry (List.mem_cons_of_mem head member)).insertOrAssign _ ?_
              exact ih head List.mem_cons_self
                fun node found => defaultValid.of_lookup found

def deepMerge (user default : Table Key α) : Table Key α where
  entries := mergeEntries user.entries default.entries
  valid := by
    rw [← override_table]
    apply valid_override user.valid
    rintro node ⟨⟩
    exact default.valid

def Node.leafAt? : List Key → Node Key α → Option α
  | [], .leaf value => some value
  | [], .table _ => none
  | _ :: _, .leaf _ => none
  | key :: path, .table entries => (entries.lookup key).bind (leafAt? path)

/-- The user's leaves stand at every depth. -/
theorem leafAt?_override {path : List Key} {user : Node Key α}
    {below : Option (Node Key α)} {value : α}
    (set : user.leafAt? path = some value) :
    (override user below).leafAt? path = some value := by
  induction path generalizing user below with
  | nil =>
      cases user with
      | leaf other =>
          rwa [override_of_not_tables (fun _ _ table => by cases table)]
      | table user => cases set
  | cons key path ih =>
      cases user with
      | leaf other => cases set
      | table user =>
          obtain ⟨node, found, reached⟩ := Option.bind_eq_some_iff.mp set
          match below with
          | some (.table default) =>
              rw [override_table, Node.leafAt?,
                lookup_mergeEntries_of_some found]
              exact ih reached
          | none | some (.leaf _) =>
              rwa [override_of_not_tables (fun _ _ _ table => by cases table)]

def Table.leafAt? (table : Table Key α) (path : List Key) : Option α :=
  (Node.table table.entries).leafAt? path

theorem leafAt?_deepMerge {user : Table Key α} {path : List Key} {value : α}
    (set : user.leafAt? path = some value) (default : Table Key α) :
    (deepMerge user default).leafAt? path = some value := by
  have stands : (override (.table user.entries)
      (some (.table default.entries))).leafAt? path = some value :=
    leafAt?_override set
  rwa [override_table] at stands

end RoboBand.Data
