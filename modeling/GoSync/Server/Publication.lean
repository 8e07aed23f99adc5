import GoSync.Server.Snapshot
import GoSync.Server.Statements

/-!
# The statements of `snapshot_end`

The end of a snapshot deletes the contents of its tables, the last table first, and inserts the staged rows
in the order in which they came. Each statement has to leave the foreign keys intact. That is so if the
tables come parents first and the rows table by table.
-/

namespace GoSync.Server

variable {Raw Value Hash : Type}

inductive PublicationStep where
  | delete (table : TableRef)
  | insert (row : Row)
  deriving DecidableEq, Repr

namespace PublicationStep

def execute (pg : Postgres Value) (cfg : Syncer)
    (types : String → Except TargetError (List (String × String))) (tables : Tables Value) :
    PublicationStep → Except TargetError (Tables Value)
  | .delete table => clearTable pg tables table.name
  | .insert row => applyRow pg cfg types { row with operation := .insert } tables

def deletes (steps : List PublicationStep) : List TableRef :=
  steps.filterMap fun step => match step with
    | .delete table => some table
    | .insert _ => none

def inserts (steps : List PublicationStep) : List Row :=
  steps.filterMap fun step => match step with
    | .delete _ => none
    | .insert row => some row

end PublicationStep

/-- The statements that `snapshot_end` comes to. -/
def publicationSteps (generation : String) (db : Db Raw Value Hash) : List PublicationStep :=
  (Paging.ordered ScopeRow.ordinal db.snapshotScope).reverse.map (fun row => .delete row.table)
    ++ (Paging.ordered SnapshotRow.key (db.snapshotRows.filter fun row => row.generation = generation)).map
      fun row => .insert row.payload

def stepsOf (scope : List TableRef) (rows : List Row) : List PublicationStep :=
  scope.reverse.map PublicationStep.delete ++ rows.map PublicationStep.insert

theorem deletes_stepsOf (scope : List TableRef) (rows : List Row) :
    PublicationStep.deletes (stepsOf scope rows) = scope.reverse := by
  simp [PublicationStep.deletes, stepsOf, List.filterMap_map]

theorem inserts_stepsOf (scope : List TableRef) (rows : List Row) :
    PublicationStep.inserts (stepsOf scope rows) = rows := by
  simp [PublicationStep.inserts, stepsOf, List.filterMap_map]

section Received

variable {rt : Runtime Raw Value Hash} {generation : String} {scope : List TableRef}
  {chunks : List Message} {tables : Tables Value} {target : Target Raw Value Hash}

theorem Loading.publicationSteps_eq (h : Loading rt generation scope chunks tables target) :
    publicationSteps generation target.db = stepsOf scope (chunks.flatMap Message.rows) := by
  have hall : target.db.snapshotRows.filter (fun row => row.generation = generation)
      = chunks.flatMap snapshotRowsOf := by
    rw [h.rows, List.filter_eq_self]
    intro row hrow
    obtain ⟨message, hmessage, hrow⟩ := List.mem_flatMap.mp hrow
    obtain ⟨_, -, rfl⟩ := List.mem_map.mp hrow
    exact decide_eq_true (h.order.generation message hmessage)
  have hordered : Paging.ordered SnapshotRow.key (chunks.flatMap snapshotRowsOf)
      = chunks.flatMap snapshotRowsOf := by
    apply Paging.ordered_of_pairwise
    exact (pairwise_snapshotRows h.order.seq).imp fun hlt => le_of_lt hlt
  have hpayload : (chunks.flatMap snapshotRowsOf).map SnapshotRow.payload
      = chunks.flatMap Message.rows := by
    rw [List.map_flatMap]
    exact List.flatMap_congr fun message _ => snapshotRowsOf_payload message
  have htables : (scopeRows scope).map ScopeRow.table = scope := by
    rw [scopeRows, List.map_map]
    exact List.zipIdx_map_fst 0 scope
  rw [publicationSteps, stepsOf, h.scope, ordered_scopeRows, hall, hordered, ← hpayload, List.map_map]
  conv_rhs => rw [← htables, ← List.map_reverse, List.map_map]
  rfl

theorem Loading.publishSnapshot_eq_steps (h : Loading rt generation scope chunks tables target)
    {message : Message} {activated : Db Raw Value Hash}
    (hactivated : activateSnapshot rt message target.db = .ok activated) :
    publishSnapshot rt target.types tables generation activated = (do
      let tables ← ((publicationSteps generation target.db).foldlM
        (PublicationStep.execute rt.pg rt.cfg (columnTypes target.types tables)) activated.tables).mapError
          StoreError.target
      .ok { activated with tables := tables, snapshotRows := [], snapshotScope := [] }) := by
  have hframe := activateSnapshot_frame hactivated
  rw [h.publicationSteps_eq,
    publishSnapshot_eq activated (by rw [hframe]; exact h.scope) (by rw [hframe]; exact h.rows)
      h.order.generation h.order.seq,
    stepsOf, List.foldlM_append, Except.mapError_bind, bind_assoc, List.foldlM_map]
  simp only [List.foldlM_map]
  rfl

end Received

/-- A foreign key between two tables: which rows refer to which, and which rows refer to none. -/
structure Reference (Value : Type) where
  child : String
  parent : String
  refers : TargetRow Value → TargetRow Value → Prop
  exempt : TargetRow Value → Prop

def Reference.Holds (reference : Reference Value) (tables : Tables Value) : Prop :=
  ∀ table, tables reference.child = some table → ∀ row ∈ table.rows,
    reference.exempt row ∨ ∃ parent, tables reference.parent = some parent
      ∧ ∃ other ∈ parent.rows, reference.refers row other

/-- Parents come before their children: after the child of a reference there is no parent of it. -/
def ParentsFirst (references : List (Reference Value)) (scope : List TableRef) : Prop :=
  ∀ reference ∈ references, reference.child ∈ scope.map TableRef.name
    ∧ reference.child ≠ reference.parent
    ∧ (scope.map TableRef.name).Pairwise fun first second =>
      ¬ (first = reference.child ∧ second = reference.parent)

def RowsOf (scope : List TableRef) (parts : List (List Row)) : Prop :=
  List.Forall₂ (fun table rows => ∀ row ∈ rows, row.schema = table.schema ∧ row.table = table.name)
    scope parts

section Order

variable {scope : List TableRef} {parts : List (List Row)}

theorem RowsOf.table_mem (h : RowsOf scope parts) {row : Row} (hrow : row ∈ parts.flatten) :
    row.table ∈ scope.map TableRef.name := by
  induction h with
  | nil => cases hrow
  | cons hrows _ ih =>
      rw [List.flatten_cons, List.mem_append] at hrow
      rcases hrow with hrow | hrow
      · rw [(hrows row hrow).2]
        exact List.mem_cons_self
      · exact List.mem_cons_of_mem _ (ih hrow)

theorem RowsOf.pairwise {follows : String → String → Prop} (h : RowsOf scope parts)
    (hscope : (scope.map TableRef.name).Pairwise follows) (hsame : ∀ name, follows name name) :
    parts.flatten.Pairwise fun first second => follows first.table second.table := by
  induction h with
  | nil => exact .nil
  | @cons table rows scope parts hrows hrest ih =>
      rw [List.map_cons, List.pairwise_cons] at hscope
      rw [List.flatten_cons, List.pairwise_append]
      refine ⟨?_, ih hscope.2, ?_⟩
      · apply List.pairwise_of_forall_mem_list
        intro first hfirst second hsecond
        rw [(hrows first hfirst).2, (hrows second hsecond).2]
        exact hsame table.name
      · intro first hfirst second hsecond
        rw [(hrows first hfirst).2]
        exact hscope.1 _ (RowsOf.table_mem hrest hsecond)

end Order

section References

variable {pg : Postgres Value} {cfg : Syncer}
  {types : String → Except TargetError (List (String × String))} {references : List (Reference Value)}
  {scope : List TableRef} {parts : List (List Row)} {before after : Tables Value}

def Postgres.unconstrained (pg : Postgres Value) : Postgres Value :=
  { pg with admits := fun _ => true }

variable {tables next : Tables Value} {name : String}

theorem replaceTable_admitted {table : TargetTable Value}
    (h : replaceTable pg.unconstrained tables name table = .ok next) (hadmits : pg.admits next = true) :
    replaceTable pg tables name table = .ok next := by
  obtain rfl := replaceTable_eq h
  exact if_pos hadmits

theorem changeRow_admitted
    {keys : List (Expression Value)} {change : TargetRow Value → Option (TargetRow Value)}
    {mismatch : TargetError}
    (h : changeRow pg.unconstrained tables name keys change mismatch = .ok next)
    (hadmits : pg.admits next = true) : changeRow pg tables name keys change mismatch = .ok next := by
  unfold changeRow at h ⊢
  cases htable : tables name with
  | none =>
      rw [htable] at h
      cases h
  | some table =>
      rw [htable] at h
      dsimp only at h ⊢
      split_ifs at h with hcomparable
      have hcomparable : (keys.all fun key => pg.comparable key.type) = true := hcomparable
      rw [if_neg (not_not.mpr hcomparable)]
      split at h
      · cases h
      · rename_i rows hrows
        have hrows : changeFirst (matchesRow pg keys) change table.rows = some rows := hrows
        rw [hrows]
        exact replaceTable_admitted h hadmits

theorem Statement.execute_admitted
    {prepared : Statement Value} (h : prepared.execute pg.unconstrained tables name = .ok next)
    (hadmits : pg.admits next = true) : prepared.execute pg tables name = .ok next := by
  cases prepared with
  | insert values =>
      simp only [Statement.execute, insertRow] at h ⊢
      split at h
      · cases h
      · rename_i table htable
        split_ifs at h with hnodup
        rw [if_neg (not_not.mpr hnodup)]
        exact replaceTable_admitted h hadmits
  | update values predicate => exact changeRow_admitted h hadmits
  | delete predicate => exact changeRow_admitted h hadmits

theorem PublicationStep.execute_admitted {step : PublicationStep}
    (h : step.execute pg.unconstrained cfg types tables = .ok next) (hadmits : pg.admits next = true) :
    step.execute pg cfg types tables = .ok next := by
  cases step with
  | delete table =>
      simp only [PublicationStep.execute, clearTable] at h ⊢
      split at h
      · cases h
      · exact replaceTable_admitted h hadmits
  | insert row =>
      simp only [PublicationStep.execute] at h ⊢
      obtain ⟨prepared, hprepared, hexecute⟩ := Except.bind_eq_ok.mp h
      exact Except.bind_eq_ok.mpr ⟨prepared, hprepared, Statement.execute_admitted hexecute hadmits⟩

theorem foldlM_admitted {steps : List PublicationStep}
    (h : steps.foldlM (PublicationStep.execute pg.unconstrained cfg types) before = .ok after)
    (hadmits : ∀ front back state, steps = front ++ back →
      front.foldlM (PublicationStep.execute pg.unconstrained cfg types) before = .ok state →
      pg.admits state = true) :
    steps.foldlM (PublicationStep.execute pg cfg types) before = .ok after := by
  induction steps generalizing before with
  | nil => exact h
  | cons step steps ih =>
      obtain ⟨next, hnext, h⟩ := Except.foldlM_cons_eq_ok.mp h
      have hfirst := hadmits [step] steps next rfl (Except.foldlM_cons_eq_ok.mpr ⟨next, hnext, rfl⟩)
      refine Except.foldlM_cons_eq_ok.mpr ⟨next, PublicationStep.execute_admitted hnext hfirst, ih h ?_⟩
      intro front back state hsplit hstate
      exact hadmits (step :: front) back state (by rw [hsplit]; rfl)
        (Except.foldlM_cons_eq_ok.mpr ⟨next, hnext, hstate⟩)

variable {reference : Reference Value}

/-- Children are cleared first, so a reference never dangles. -/
theorem Reference.Holds.deleted (hbefore : reference.Holds before)
    {front back : List TableRef} {state : Tables Value} (hscope : scope = back.reverse ++ front.reverse)
    (hparent : (scope.map TableRef.name).Pairwise fun first second =>
      ¬ (first = reference.child ∧ second = reference.parent))
    (hchild : reference.child ∈ scope.map TableRef.name)
    (hstate : front.foldlM (fun current table => clearTable pg current table.name) before = .ok state) :
    reference.Holds state := by
  have hcleared := clearTables_eq hstate
  rw [hscope, List.map_append, List.map_reverse, List.map_reverse] at hparent hchild
  intro table htable row hrow
  by_cases hdeleted : reference.child ∈ front.map TableRef.name
  · rw [hcleared, if_pos hdeleted] at htable
    obtain ⟨old, -, rfl⟩ := Option.map_eq_some_iff.mp htable
    cases hrow
  · rw [List.mem_append, List.mem_reverse, List.mem_reverse] at hchild
    have hchild := hchild.resolve_right hdeleted
    have hleft : reference.parent ∉ front.map TableRef.name := by
      intro hlater
      exact (List.pairwise_append.mp hparent).2.2 _ (List.mem_reverse.mpr hchild) _
        (List.mem_reverse.mpr hlater) ⟨rfl, rfl⟩
    rw [hcleared, if_neg hdeleted] at htable
    rcases hbefore table htable row hrow with hexempt | ⟨parent, hfound, hrefers⟩
    · exact .inl hexempt
    · exact .inr ⟨parent, by rw [hcleared, if_neg hleft, hfound], hrefers⟩

/-- Parents come first, so a reference holds after each row if it does at the end. -/
theorem Reference.Holds.inserted (hafter : reference.Holds after)
    {cleared state : Tables Value} {front back : List Row}
    (hempty : ∀ table, cleared reference.child = some table → table.rows = [])
    (horder : (front ++ back).Pairwise fun first second =>
      ¬ (first.table = reference.child ∧ second.table = reference.parent))
    (hstate : front.foldlM (fun current row =>
      applyRow pg cfg types { row with operation := .insert } current) cleared = .ok state)
    (hrest : back.foldlM (fun current row =>
      applyRow pg cfg types { row with operation := .insert } current) state = .ok after) :
    reference.Holds state := by
  intro table htable row hrow
  obtain ⟨hmissing, hpresent⟩ := insertRows_eq hstate reference.child
  cases hchildren : cleared reference.child with
  | none => cases (hmissing hchildren).symm.trans htable
  | some children =>
      obtain ⟨added, hadded, hchild⟩ := hpresent children hchildren
      cases hchild.symm.trans htable
      rw [hempty children hchildren, List.nil_append] at hrow
      -- A row of the child has been inserted, so no row of the parent is still to come.
      obtain ⟨first, hfirst, -⟩ := Except.exists_of_mapM_eq_ok hadded row hrow
      obtain ⟨hfront, hname⟩ := List.mem_filter.mp hfirst
      have hname : first.table = reference.child := of_decide_eq_true hname
      have hnone : (back.filter fun row => row.table = reference.parent) = [] := by
        rw [List.filter_eq_nil_iff]
        intro later hlater hsame
        exact (List.pairwise_append.mp horder).2.2 first hfront later hlater
          ⟨hname, of_decide_eq_true hsame⟩
      obtain ⟨more, -, hlast⟩ := (insertRows_eq hrest reference.child).2 _ htable
      have hrow' : row ∈ (children.rows ++ added) ++ more := by
        rw [hempty children hchildren, List.nil_append]
        exact List.mem_append_left _ hrow
      rcases hafter _ hlast row hrow' with hexempt | ⟨parent, hparents, hrefers⟩
      · exact .inl hexempt
      · obtain ⟨hgone, hkept⟩ := insertRows_eq hrest reference.parent
        cases hsame : state reference.parent with
        | none => cases (hgone hsame).symm.trans hparents
        | some parents =>
            obtain ⟨none, hno, hparent⟩ := hkept parents hsame
            rw [hnone] at hno
            cases hno
            cases hparent.symm.trans hparents
            simp only [List.reverse_nil, List.append_nil] at hrefers
            exact .inr ⟨parents, rfl, hrefers⟩

/-- **Foreign keys during a publication.** A snapshot that leaves the foreign keys intact, published with
parents first and table by table, leaves them intact after every statement. -/
theorem publication_references_hold (hparents : ParentsFirst references scope)
    (hrows : RowsOf scope parts) (hbefore : ∀ reference ∈ references, reference.Holds before)
    (hafter : ∀ reference ∈ references, reference.Holds after)
    (h : (stepsOf scope parts.flatten).foldlM (PublicationStep.execute pg cfg types) before = .ok after)
    {front back : List PublicationStep} {state : Tables Value}
    (hsplit : stepsOf scope parts.flatten = front ++ back)
    (hstate : front.foldlM (PublicationStep.execute pg cfg types) before = .ok state)
    (hreference : reference ∈ references) : reference.Holds state := by
  obtain ⟨hchild, hdistinct, hparent⟩ := hparents reference hreference
  rcases List.append_eq_append_iff.mp hsplit with ⟨inserted, rfl, hinserted⟩ | ⟨kept, hdeleted, -⟩
  · obtain ⟨first, second, hflatten, rfl, rfl⟩ := List.map_eq_append_iff.mp hinserted
    obtain ⟨cleared, hcleared, hfirst⟩ := Except.foldlM_append_eq_ok.mp hstate
    have hsecond : (second.map PublicationStep.insert).foldlM
        (PublicationStep.execute pg cfg types) state = .ok after := by
      rw [stepsOf, hflatten, List.map_append, ← List.append_assoc] at h
      obtain ⟨middle, hmiddle, h⟩ := Except.foldlM_append_eq_ok.mp h
      cases hstate.symm.trans hmiddle
      exact h
    rw [List.foldlM_map] at hcleared hfirst hsecond
    refine Reference.Holds.inserted (hafter reference hreference) ?_ ?_ hfirst hsecond
    · intro table htable
      have hname : reference.child ∈ scope.reverse.map TableRef.name := by
        rwa [List.map_reverse, List.mem_reverse]
      rw [clearTables_eq hcleared, if_pos hname] at htable
      obtain ⟨old, -, rfl⟩ := Option.map_eq_some_iff.mp htable
      rfl
    · rw [← hflatten]
      exact hrows.pairwise hparent fun name hsame => hdistinct (hsame.1.symm.trans hsame.2)
  · obtain ⟨first, second, hreverse, rfl, rfl⟩ := List.map_eq_append_iff.mp hdeleted
    rw [List.foldlM_map] at hstate
    have hscope : scope = second.reverse ++ first.reverse := by
      rw [← List.reverse_append, ← hreverse, List.reverse_reverse]
    exact Reference.Holds.deleted (hbefore reference hreference) hscope hparent hchild hstate

theorem publication_admitted (hadmits : ∀ tables, (∀ reference ∈ references, reference.Holds tables) →
      pg.admits tables = true)
    (hparents : ParentsFirst references scope) (hrows : RowsOf scope parts)
    (hbefore : ∀ reference ∈ references, reference.Holds before)
    (hafter : ∀ reference ∈ references, reference.Holds after)
    (h : (stepsOf scope parts.flatten).foldlM (PublicationStep.execute pg.unconstrained cfg types) before
      = .ok after) :
    (stepsOf scope parts.flatten).foldlM (PublicationStep.execute pg cfg types) before = .ok after := by
  refine foldlM_admitted h ?_
  intro front back state hsplit hstate
  apply hadmits
  intro reference hreference
  exact publication_references_hold hparents hrows hbefore hafter h hsplit hstate hreference

end References

end GoSync.Server
