import Votport.Foundation.Runs
import Votport.Foundation.Table
import Votport.Foundation.Words
import Mathlib.Data.List.Sort
import Mathlib.Data.Prod.Lex
import Mathlib.Tactic.Common

/-!
# The audit log and its export

Rows go into the log with a reading of the wall clock, and a table of counts follows the log by
triggers.  The export returns a page of the rows after a cursor, oldest first, and a consumer asks
for the next page with the cursor of the last row it has.  The pages come in the order of the
cursor and no row comes twice; a row is left out only when it went in behind the cursor.
-/

namespace Votport

variable {δ : Type*}

/-! ### Rows -/

/-- A row of `audit_log`. -/
structure AuditRow (δ : Type*) where
  rowid : Int
  loggedAt : Int
  tenant : String
  actor : String
  event : String
  subject : String
  detail : δ
deriving DecidableEq

/-- The rows of `audit_log`. -/
abbrev AuditLog (δ : Type*) := Table (AuditRow.rowid : AuditRow δ → Int)

/-- The place of a row in the order of the export. -/
def AuditRow.place (row : AuditRow δ) : Int ×ₗ Int := toLex (row.loggedAt, row.rowid)

/-- `i64::try_from(n).unwrap_or(fallback)`. -/
def tryI64 (n : UInt64) (fallback : Int) : Int :=
  if n.toNat ≤ i64Max then n.toNat else fallback

/-- The largest rowid, zero when there is none. -/
def maxRowid (rows : List (AuditRow δ)) : Int := (rows.map AuditRow.rowid).foldr max 0

/-- The rowid of a new row: the one after the largest, or where that is the largest integer a
random one. -/
def nextRowid (rows : List (AuditRow δ)) (random : Int) : Int :=
  if maxRowid rows < i64Max then maxRowid rows + 1 else random

/-- The row that `insert_audit_row` writes. -/
def newAuditRow (log : AuditLog δ) (now : UInt64) (tenant actor event subject : String)
    (detail : δ) (random : Int) : AuditRow δ where
  rowid := nextRowid log.rows random
  loggedAt := tryI64 now 0
  tenant := tenant
  actor := actor
  event := event
  subject := subject
  detail := detail

/-- The rows that `audit_prune` deletes. -/
def AuditRow.pruned (before : UInt64) (keepSubjects : List String) (row : AuditRow δ) : Prop :=
  row.loggedAt < tryI64 before 0 ∧ row.subject ∉ keepSubjects

instance (before : UInt64) (keepSubjects : List String) :
    DecidablePred (AuditRow.pruned before keepSubjects : AuditRow δ → Prop) :=
  fun _ => inferInstanceAs (Decidable (_ ∧ _))

/-! ### The export -/

/-- The `lower` of SQLite, which folds the letters of ASCII. -/
def sqliteLower (text : String) : List Char := text.toList.map Char.toLower

/-- `instr(lower(text), lower(part)) > 0`. -/
def instrLower (text part : String) : Bool := decide (sqliteLower part <:+: sqliteLower text)

/-- What the export is narrowed to, beside a tenant. -/
structure AuditFilters where
  event : Option String
  query : Option String

/-- The row is one of the tenant's and passes the filters. -/
def AuditFilters.selects (filters : AuditFilters) (tenant : Option String) (row : AuditRow δ) :
    Bool :=
  tenant.all (fun tenant => decide (row.tenant = tenant))
    && (filters.event.filter (· ≠ "")).all (fun event => decide (row.event = event))
    && (filters.query.filter (· ≠ "")).all fun query =>
        instrLower (if row.tenant = "" then "default" else row.tenant) query
          || instrLower row.actor query
          || instrLower row.event query
          || instrLower row.subject query

/-- What a consumer has of the place of a row. -/
def AuditRow.cursor (row : AuditRow δ) : UInt64 × UInt64 :=
  (UInt64.ofNat row.loggedAt.toNat, UInt64.ofNat row.rowid.toNat)

/-- The place that a cursor names. -/
def cursorPlace (cursor : UInt64 × UInt64) : Int ×ₗ Int :=
  toLex (tryI64 cursor.1 0, tryI64 cursor.2 0)

/-- The selected rows after a cursor. -/
def auditRowsAfter (filters : AuditFilters) (tenant : Option String) (log : AuditLog δ)
    (cursor : UInt64 × UInt64) : List (AuditRow δ) :=
  log.rows.filter fun row => decide (cursorPlace cursor < row.place) && filters.selects tenant row

/-- A page of the selected rows after a cursor, oldest first. -/
def auditExportFiltered (filters : AuditFilters) (tenant : Option String) (log : AuditLog δ)
    (cursor : UInt64 × UInt64) (limit : UInt64) : List (AuditRow δ) :=
  ((auditRowsAfter filters tenant log cursor).insertionSort (fun r s => r.place ≤ s.place)).take
    (tryI64 limit 1000).toNat

/-! ### Pages -/

theorem maxRowid_cons (row : AuditRow δ) (rows : List (AuditRow δ)) :
  maxRowid (row :: rows) = max row.rowid (maxRowid rows)
  := rfl

theorem rowid_le_maxRowid {rows : List (AuditRow δ)} {row : AuditRow δ} (h : row ∈ rows) :
  row.rowid ≤ maxRowid rows
  := by
  induction rows with
  | nil => cases h
  | cons first rows ih =>
      rw [maxRowid_cons]
      rcases List.mem_cons.mp h with rfl | h
      · apply le_max_left
      · apply le_trans (ih h)
        apply le_max_right

/-- A page of at least one row is asked for. -/
theorem tryI64_pos {limit : UInt64} (h : 0 < limit) : 0 < (tryI64 limit 1000).toNat := by
  have hpos : 0 < limit.toNat := UInt64.lt_iff_toNat_lt.mp h
  rw [tryI64]
  split_ifs
  · exact_mod_cast hpos
  · decide

theorem tryI64_nonneg (n : UInt64) : 0 ≤ tryI64 n 0 := by
  rw [tryI64]
  split_ifs
  · apply Int.natCast_nonneg
  · exact le_rfl

theorem tryI64_le (n : UInt64) : tryI64 n 0 ≤ i64Max := by
  rw [tryI64]
  split_ifs with h
  · exact_mod_cast h
  · apply Int.natCast_nonneg

/-- A stored integer survives being sent to the consumer and back. -/
theorem tryI64_ofNat_toNat {i : Int} (hnonneg : 0 ≤ i) (hle : i ≤ i64Max) :
  tryI64 (UInt64.ofNat i.toNat) 0 = i
  := by
  have hnat : i.toNat ≤ i64Max := by omega
  have hword : (UInt64.ofNat i.toNat).toNat = i.toNat := by
    rw [UInt64.toNat_ofNat']
    apply Nat.mod_eq_of_lt
    have : i64Max < 2 ^ 64 := by decide
    omega
  rw [tryI64, hword, if_pos hnat, Int.toNat_of_nonneg hnonneg]

/-- The rows have stored integers in place. -/
def AuditRow.Stored (row : AuditRow δ) : Prop :=
  (0 ≤ row.loggedAt ∧ row.loggedAt ≤ i64Max) ∧ 1 ≤ row.rowid ∧ row.rowid ≤ i64Max

theorem AuditRow.Stored.cursorPlace {row : AuditRow δ} (h : row.Stored) :
  cursorPlace row.cursor = row.place
  := by
  obtain ⟨⟨hat, hat'⟩, hid, hid'⟩ := h
  rw [Votport.cursorPlace, AuditRow.cursor, tryI64_ofNat_toNat hat hat',
    tryI64_ofNat_toNat (by omega) hid']
  rfl

section Page

variable {filters : AuditFilters} {tenant : Option String} {log : AuditLog δ}
  {cursor : UInt64 × UInt64} {limit : UInt64} {row : AuditRow δ}

theorem mem_auditRowsAfter :
  row ∈ auditRowsAfter filters tenant log cursor
    ↔ row ∈ log.rows ∧ cursorPlace cursor < row.place ∧ filters.selects tenant row = true
  := by
  rw [auditRowsAfter, List.mem_filter, Bool.and_eq_true, decide_eq_true_iff]

/-- What a page holds is in the log, after the cursor, and selected. -/
theorem of_mem_auditExport (h : row ∈ auditExportFiltered filters tenant log cursor limit) :
  row ∈ log.rows ∧ cursorPlace cursor < row.place ∧ filters.selects tenant row = true
  := by
  rw [← mem_auditRowsAfter]
  have hsort := List.mem_of_mem_take h
  exact (List.mem_insertionSort _).mp hsort

instance : Std.Total (fun r s : AuditRow δ => r.place ≤ s.place) where
  total r s := le_total r.place s.place

instance : IsTrans (AuditRow δ) (fun r s => r.place ≤ s.place) where
  trans _ _ _ := le_trans

/-- The selected rows after the cursor, oldest first and without repetition. -/
theorem auditRowsAfter_sorted
    (filters : AuditFilters) (tenant : Option String) (log : AuditLog δ)
    (cursor : UInt64 × UInt64) :
  ((auditRowsAfter filters tenant log cursor).insertionSort
    (fun r s => r.place ≤ s.place)).Pairwise (fun r s => r.place < s.place)
  := by
  have hids : ((auditRowsAfter filters tenant log cursor).map AuditRow.rowid).Nodup :=
    (List.filter_sublist.map AuditRow.rowid).nodup log.nodup
  have hplaces : ((auditRowsAfter filters tenant log cursor).map AuditRow.place).Nodup := by
    apply List.Nodup.of_map (fun p : Int ×ₗ Int => (ofLex p).2)
    rw [List.map_map]
    apply hids
  have hsorted := List.pairwise_insertionSort (fun r s : AuditRow δ => r.place ≤ s.place)
    (auditRowsAfter filters tenant log cursor)
  have hnodup := ((List.perm_insertionSort (fun r s : AuditRow δ => r.place ≤ s.place)
    (auditRowsAfter filters tenant log cursor)).map AuditRow.place).nodup_iff.mpr hplaces
  have hne := List.pairwise_map.mp hnodup
  apply (hsorted.and hne).imp
  intro r s h
  apply lt_of_le_of_ne h.1 h.2

/-- A page is in the order of the cursor. -/
theorem auditExport_sorted :
  (auditExportFiltered filters tenant log cursor limit).Pairwise (fun r s => r.place < s.place)
  := (auditRowsAfter_sorted filters tenant log cursor).sublist (List.take_sublist _ _)

/-- A page holds every selected row after the cursor up to any row that it holds. -/
theorem mem_auditExport_of_le
    {r s : AuditRow δ} (hs : s ∈ auditExportFiltered filters tenant log cursor limit)
    (hr : r ∈ auditRowsAfter filters tenant log cursor) (hle : r.place ≤ s.place) :
  r ∈ auditExportFiltered filters tenant log cursor limit
  := by
  rw [auditExportFiltered] at hs ⊢
  generalize hn : (tryI64 limit 1000).toNat = n at hs ⊢
  have hsorted := auditRowsAfter_sorted filters tenant log cursor
  rw [← List.take_append_drop n (List.insertionSort _ _), List.pairwise_append] at hsorted
  have hmem := (List.mem_insertionSort (fun r s : AuditRow δ => r.place ≤ s.place)).mpr hr
  rw [← List.take_append_drop n (List.insertionSort _ _), List.mem_append] at hmem
  rcases hmem with htake | hdrop
  · apply htake
  · exact absurd (hsorted.2.2 s hs r hdrop) (not_lt.mpr hle)

/-- An empty page of at least one row leaves no selected row after the cursor. -/
theorem auditExport_eq_nil (hlimit : 0 < limit) :
  auditExportFiltered filters tenant log cursor limit = []
    ↔ auditRowsAfter filters tenant log cursor = []
  := by
  have hn := tryI64_pos hlimit
  rw [auditExportFiltered, List.take_eq_nil_iff]
  constructor
  · rintro (h | h)
    · omega
    · rw [← List.length_eq_zero_iff, List.length_insertionSort] at h
      exact List.length_eq_zero_iff.mp h
  · intro h
    right
    rw [h]
    rfl

end Page

/-! ### The log, its count and a consumer -/

/-- The log with its count, and a consumer that follows the export. -/
structure AuditWorld (δ : Type*) where
  log : AuditLog δ
  /-- The row of `audit_log_count`. -/
  count : Int
  /-- The last reading of the clock that went into the log. -/
  clock : UInt64
  cursor : UInt64 × UInt64
  /-- What the consumer has received. -/
  delivered : List (AuditRow δ)
  /-- The rows that went in when the cursor had passed their place. -/
  behind : List (AuditRow δ)

/-- The empty log, and a consumer that begins. -/
def AuditWorld.start : AuditWorld δ where
  log := .empty
  count := 0
  clock := 0
  cursor := (0, 0)
  delivered := []
  behind := []

/-- What happens to the log. -/
inductive AuditAction (δ : Type*)
  | insert (now : UInt64) (tenant actor event subject : String) (detail : δ) (random : Int)
  | prune (before : UInt64) (keepSubjects : List String)
  | page (limit : UInt64)

/-- One action, for a consumer with fixed filters that asks for at least one row. -/
def AuditWorld.step (filters : AuditFilters) (tenant : Option String) (w : AuditWorld δ) :
    AuditAction δ → Option (AuditWorld δ)
  | .insert now rowTenant actor event subject detail random =>
      let row := newAuditRow w.log now rowTenant actor event subject detail random
      if 1 ≤ row.rowid ∧ row.rowid ≤ i64Max then
        (w.log.insert? row).map fun log =>
          { w with
            log
            count := w.count + 1
            clock := now
            behind := if row.place ≤ cursorPlace w.cursor then row :: w.behind else w.behind }
      else none
  | .prune before keepSubjects =>
      some { w with
        log := w.log.filter fun row => ¬ row.pruned before keepSubjects
        count := w.count - (w.log.rows.filter fun row => row.pruned before keepSubjects).length }
  | .page limit =>
      if 0 < limit then
        let rows := auditExportFiltered filters tenant w.log w.cursor limit
        some { w with
          cursor := (rows.getLast?.map AuditRow.cursor).getD w.cursor
          delivered := w.delivered ++ rows }
      else none

/-- What holds of the log, its count and what the consumer has received. -/
structure AuditWorld.Followed (filters : AuditFilters) (tenant : Option String)
    (w : AuditWorld δ) : Prop where
  stored : ∀ row ∈ w.log.rows, row.Stored
  counted : w.count = w.log.rows.length
  sorted : w.delivered.Pairwise (fun r s => r.place < s.place)
  reached : ∀ row ∈ w.delivered, row.place ≤ cursorPlace w.cursor
  complete : ∀ row ∈ w.log.rows, filters.selects tenant row = true →
    row.place ≤ cursorPlace w.cursor → row ∈ w.delivered ∨ row ∈ w.behind

section Follow

variable {filters : AuditFilters} {tenant : Option String} {w w' : AuditWorld δ}

theorem AuditWorld.start_followed : (start : AuditWorld δ).Followed filters tenant where
  stored := nofun
  counted := rfl
  sorted := .nil
  reached := nofun
  complete := nofun

/-- A page takes the consumer to the place of its last row. -/
theorem AuditWorld.Followed.page (hw : w.Followed filters tenant) (limit : UInt64) :
  let rows := auditExportFiltered filters tenant w.log w.cursor limit
  let cursor := (rows.getLast?.map AuditRow.cursor).getD w.cursor
  (rows = [] ∧ cursor = w.cursor)
  ∨ ∃ last ∈ rows, cursorPlace cursor = last.place ∧ ∀ row ∈ rows, row.place ≤ last.place
  := by
  intro rows cursor
  rcases List.eq_nil_or_concat rows with h | ⟨init, last, h⟩
  · left
    refine ⟨h, ?_⟩
    simp only [cursor, h]
    rfl
  · right
    have hmem : last ∈ rows := by
      rw [h]
      simp
    have hsorted : rows.Pairwise (fun r s => r.place < s.place) := auditExport_sorted
    refine ⟨last, hmem, ?_, ?_⟩
    · have hcursor : cursor = last.cursor := by
        simp only [cursor, h, List.concat_eq_append, List.getLast?_append, List.getLast?_singleton]
        rfl
      rw [hcursor]
      exact (hw.stored last (of_mem_auditExport hmem).1).cursorPlace
    · intro row hrow
      rw [h, List.concat_eq_append] at hrow hsorted
      rcases List.mem_append.mp hrow with hrow | hrow
      · apply le_of_lt
        exact (List.pairwise_append.mp hsorted).2.2 row hrow last (by simp)
      · rw [List.mem_singleton.mp hrow]

theorem AuditWorld.Followed.step
    (hw : w.Followed filters tenant) {a : AuditAction δ}
    (h : w.step filters tenant a = some w') :
  w'.Followed filters tenant
  := by
  cases a with
  | insert now rowTenant actor event subject detail random =>
      dsimp only [AuditWorld.step] at h
      obtain ⟨hrange, h⟩ := Option.ite_none_right_eq_some.mp h
      obtain ⟨log, hinsert, rfl⟩ := Option.map_eq_some_iff.mp h
      obtain ⟨_, hrows⟩ := Table.insert?_eq_some.mp hinsert
      constructor
      · intro row hrow
        rw [hrows] at hrow
        rcases List.mem_cons.mp hrow with rfl | hrow
        · exact ⟨⟨tryI64_nonneg now, tryI64_le now⟩, hrange⟩
        · apply hw.stored row hrow
      · rw [hrows, List.length_cons, Int.natCast_add, hw.counted]
        rfl
      · apply hw.sorted
      · apply hw.reached
      · intro row hrow hselected hle
        rw [hrows] at hrow
        rcases List.mem_cons.mp hrow with rfl | hrow
        · right
          rw [if_pos hle]
          apply List.mem_cons_self
        · apply (hw.complete row hrow hselected hle).imp_right
          intro hbehind
          split_ifs
          · apply List.mem_cons_of_mem _ hbehind
          · apply hbehind
  | prune before keepSubjects =>
      cases h
      constructor
      · intro row hrow
        apply hw.stored row (Table.mem_filter.mp hrow).1
      · have hcount := List.length_eq_length_filter_add
          (l := w.log.rows) (fun row => decide (row.pruned before keepSubjects))
        rw [hw.counted, hcount, Table.rows_filter]
        simp only [decide_not]
        omega
      · apply hw.sorted
      · apply hw.reached
      · intro row hrow
        apply hw.complete row (Table.mem_filter.mp hrow).1
  | page limit =>
      rw [AuditWorld.step] at h
      split_ifs at h with hlimit
      cases h
      rcases hw.page limit with ⟨hnil, hcursor⟩ | ⟨last, hlast, hcursor, hle⟩
      · simp only [hnil, List.append_nil] at hcursor ⊢
        exact ⟨hw.stored, hw.counted, hw.sorted, hw.reached, hw.complete⟩
      · have hafter : ∀ row ∈ auditExportFiltered filters tenant w.log w.cursor limit,
            cursorPlace w.cursor < row.place := fun row hrow => (of_mem_auditExport hrow).2.1
        refine ⟨hw.stored, hw.counted, ?_, ?_, ?_⟩
        · rw [List.pairwise_append]
          refine ⟨hw.sorted, auditExport_sorted, ?_⟩
          intro row hrow row' hrow'
          exact lt_of_le_of_lt (hw.reached row hrow) (hafter row' hrow')
        · intro row hrow
          rw [hcursor]
          rcases List.mem_append.mp hrow with hrow | hrow
          · apply le_of_lt
            exact lt_of_le_of_lt (hw.reached row hrow) (hafter last hlast)
          · apply hle row hrow
        · intro row hrow hselected hplace
          rw [hcursor] at hplace
          rcases le_or_gt row.place (cursorPlace w.cursor) with hbefore | hafter
          · apply (hw.complete row hrow hselected hbefore).imp_left
            apply List.mem_append_left
          · left
            apply List.mem_append_right
            apply mem_auditExport_of_le hlast _ hplace
            exact mem_auditRowsAfter.mpr ⟨hrow, hafter, hselected⟩

theorem AuditWorld.run_followed
    {as : List (AuditAction δ)} (h : Runs.run (step filters tenant) start as = some w) :
  w.Followed filters tenant
  := by
  have hstep : ∀ (w : AuditWorld δ) a w', w.Followed filters tenant →
      step filters tenant w a = some w' → w'.Followed filters tenant := by
    intro w a w' hw h
    exact hw.step h
  exact Runs.run_invariant hstep start_followed h

/-! ### A clock that does not step back -/

/-- The action does not take the clock back, there is a rowid after the largest, and what is pruned
is older than the last row. -/
def AuditWorld.Steady (w : AuditWorld δ) : AuditAction δ → Prop
  | .insert now _ _ _ _ _ _ => w.clock ≤ now ∧ now.toNat ≤ i64Max ∧ maxRowid w.log.rows < i64Max
  | .prune before _ => before ≤ w.clock
  | .page _ => True

instance (w : AuditWorld δ) : DecidablePred w.Steady := by
  intro a
  cases a <;> unfold AuditWorld.Steady <;> infer_instance

/-- No row is ahead of the clock, and the cursor is at the beginning, at a row of the log, or at a
time that has passed. -/
structure AuditWorld.Level (w : AuditWorld δ) : Prop where
  clock : w.clock.toNat ≤ i64Max
  rows : ∀ row ∈ w.log.rows, row.loggedAt ≤ w.clock.toNat
  cursor : (ofLex (cursorPlace w.cursor)).1 < w.clock.toNat
    ∨ cursorPlace w.cursor = toLex (0, 0)
    ∨ ∃ row ∈ w.log.rows, row.place = cursorPlace w.cursor
  behind : w.behind = []

theorem AuditWorld.start_level : (start : AuditWorld δ).Level where
  clock := Nat.zero_le _
  rows := nofun
  cursor := .inr (.inl rfl)
  behind := rfl

/-- The time of the cursor has come. -/
theorem AuditWorld.Level.cursor_le (hw : w.Level) :
  (ofLex (cursorPlace w.cursor)).1 ≤ w.clock.toNat
  := by
  rcases hw.cursor with h | h | ⟨row, hrow, h⟩
  · apply le_of_lt h
  · rw [h]
    exact Int.natCast_nonneg _
  · rw [← h]
    apply hw.rows row hrow

/-- The largest rowid is at least the one of the cursor, when its time has not passed. -/
theorem AuditWorld.Level.rowid_le
    (hw : w.Level) (h : (ofLex (cursorPlace w.cursor)).1 = w.clock.toNat) :
  (ofLex (cursorPlace w.cursor)).2 ≤ maxRowid w.log.rows
  := by
  rcases hw.cursor with hlt | hstart | ⟨row, hrow, hplace⟩
  · omega
  · rw [hstart]
    cases hrows : w.log.rows with
    | nil => exact le_rfl
    | cons row rows =>
        have hfoldr : ∀ rows : List (AuditRow δ), 0 ≤ maxRowid rows := by
          intro rows
          induction rows with
          | nil => exact le_rfl
          | cons row rows ih =>
              rw [maxRowid_cons]
              apply le_trans ih
              apply le_max_right
        apply hfoldr
  · rw [← hplace]
    apply rowid_le_maxRowid hrow

/-- A row that goes in when the clock has not stepped back comes after the cursor. -/
theorem AuditWorld.Level.ahead
    (hw : w.Level) {now : UInt64} (hnow : w.clock ≤ now) (hrange : now.toNat ≤ i64Max)
    (hmax : maxRowid w.log.rows < i64Max) {tenant actor event subject : String} {detail : δ}
    {random : Int} :
  cursorPlace w.cursor
    < (newAuditRow w.log now tenant actor event subject detail random).place
  := by
  have hclock : w.clock.toNat ≤ now.toNat := UInt64.le_iff_toNat_le.mp hnow
  have hcursor := hw.cursor_le
  have hat : tryI64 now 0 = now.toNat := if_pos hrange
  have hid : nextRowid w.log.rows random = maxRowid w.log.rows + 1 := if_pos hmax
  rw [AuditRow.place, newAuditRow, hat, hid, Prod.Lex.lt_iff]
  dsimp only [ofLex_toLex]
  rcases lt_or_eq_of_le hcursor with hlt | heq
  · left
    omega
  · have hrowid := hw.rowid_le heq
    omega

theorem AuditWorld.Level.step
    (hw : w.Level) (hfollowed : w.Followed filters tenant) {a : AuditAction δ}
    (hsteady : w.Steady a) (h : w.step filters tenant a = some w') :
  w'.Level
  := by
  cases a with
  | insert now rowTenant actor event subject detail random =>
      obtain ⟨hnow, hrange, hmax⟩ := hsteady
      dsimp only [AuditWorld.step] at h
      obtain ⟨_, h⟩ := Option.ite_none_right_eq_some.mp h
      obtain ⟨log, hinsert, rfl⟩ := Option.map_eq_some_iff.mp h
      obtain ⟨_, hrows⟩ := Table.insert?_eq_some.mp hinsert
      have hclock : w.clock.toNat ≤ now.toNat := UInt64.le_iff_toNat_le.mp hnow
      constructor
      · apply hrange
      · intro row hrow
        rw [hrows] at hrow
        rcases List.mem_cons.mp hrow with rfl | hrow
        · apply le_of_eq
          exact if_pos hrange
        · apply le_trans (hw.rows row hrow)
          exact_mod_cast hclock
      · rcases hw.cursor with hlt | hstart | ⟨row, hrow, hplace⟩
        · left
          apply lt_of_lt_of_le hlt
          exact_mod_cast hclock
        · exact .inr (.inl hstart)
        · right
          right
          refine ⟨row, ?_, hplace⟩
          rw [hrows]
          apply List.mem_cons_of_mem _ hrow
      · dsimp only
        rw [if_neg (not_le.mpr (hw.ahead hnow hrange hmax)), hw.behind]
  | prune before keepSubjects =>
      cases h
      have hbefore : tryI64 before 0 ≤ w.clock.toNat := by
        have : before.toNat ≤ w.clock.toNat := UInt64.le_iff_toNat_le.mp hsteady
        rw [tryI64]
        split_ifs
        · exact_mod_cast this
        · exact Int.natCast_nonneg _
      refine ⟨hw.clock, ?_, ?_, hw.behind⟩
      · intro row hrow
        apply hw.rows row (Table.mem_filter.mp hrow).1
      · rcases hw.cursor with hlt | hstart | ⟨row, hrow, hplace⟩
        · exact .inl hlt
        · exact .inr (.inl hstart)
        · rcases lt_or_eq_of_le hw.cursor_le with hlt | heq
          · exact .inl hlt
          · right
            right
            refine ⟨row, Table.mem_filter.mpr ⟨hrow, ?_⟩, hplace⟩
            rintro ⟨hold, _⟩
            have hat : row.loggedAt = (ofLex (cursorPlace w.cursor)).1 :=
              congrArg (fun p => (ofLex p).1) hplace
            omega
  | page limit =>
      dsimp only [AuditWorld.step] at h
      obtain ⟨_, h⟩ := Option.ite_none_right_eq_some.mp h
      cases h
      refine ⟨hw.clock, hw.rows, ?_, hw.behind⟩
      rcases hfollowed.page limit with ⟨_, hcursor⟩ | ⟨last, hlast, hcursor, _⟩
      · dsimp only
        rw [hcursor]
        apply hw.cursor
      · exact .inr (.inr ⟨last, (of_mem_auditExport hlast).1, hcursor.symm⟩)

end Follow

/-- In every run of the log and of a consumer that follows the export, no row is delivered twice
and the pages come in the order of the cursor; when a page is empty, every selected row of the log
has been delivered or went in behind the cursor, and none did while the clock did not step back;
and the count is the number of rows. -/
theorem audit_export_follows
    (filters : AuditFilters) (tenant : Option String) {as : List (AuditAction δ)}
    {w : AuditWorld δ} (h : Runs.run (AuditWorld.step filters tenant) .start as = some w) :
  w.delivered.Nodup
  ∧ w.delivered.Pairwise (fun r s => r.place < s.place)
  ∧ (∀ limit, 0 < limit → auditExportFiltered filters tenant w.log w.cursor limit = [] →
      ∀ row ∈ w.log.rows, filters.selects tenant row = true →
        row ∈ w.delivered ∨ row ∈ w.behind)
  ∧ (Runs.Along (AuditWorld.step filters tenant) AuditWorld.Steady .start as → w.behind = [])
  ∧ w.count = w.log.rows.length
  := by
  have hw := AuditWorld.run_followed h
  refine ⟨?_, hw.sorted, ?_, ?_, hw.counted⟩
  · apply hw.sorted.imp
    rintro r s hlt rfl
    exact lt_irrefl _ hlt
  · intro limit hlimit hempty row hrow hselected
    have hnone := (auditExport_eq_nil hlimit).mp hempty
    apply hw.complete row hrow hselected
    by_contra hplace
    have hmem := mem_auditRowsAfter.mpr ⟨hrow, not_le.mp hplace, hselected⟩
    rw [hnone] at hmem
    cases hmem
  · intro hsteady
    have hlevel : w.Followed filters tenant ∧ w.Level := by
      apply Runs.run_invariant_along (P := AuditWorld.Steady) _ hsteady
        ⟨AuditWorld.start_followed, AuditWorld.start_level⟩ h
      rintro w a w' hsteady ⟨hfollowed, hlevel⟩ hstep
      exact ⟨hfollowed.step hstep, hlevel.step hfollowed hsteady hstep⟩
    exact hlevel.2.behind

/-- No filters. -/
def AuditFilters.none : AuditFilters where
  event := Option.none
  query := Option.none

/-- A row, a page, and a row that goes in when the clock shows `now`. -/
def auditThenInsert (now : UInt64) : List (AuditAction Unit) :=
  [.insert 10 "" "admin" "login" "" () 0, .page 1000, .insert now "" "admin" "logout" "" () 0]

theorem audit_export_follows_once :
  ∃ w, Runs.run (AuditWorld.step .none Option.none) .start (auditThenInsert 10) = some w
    ∧ w.delivered.length = 1 ∧ w.delivered.Nodup ∧ w.behind = [] ∧ w.count = w.log.rows.length
  := by
  have hrun : (Runs.run (AuditWorld.step .none Option.none) .start (auditThenInsert 10)).any
      (fun w => decide (w.delivered.length = 1)) = true := by decide
  obtain ⟨w, h, hlength⟩ := (Option.any_eq_true _ _).mp hrun
  obtain ⟨hnodup, _, _, hbehind, hcount⟩ := audit_export_follows .none Option.none h
  refine ⟨w, h, of_decide_eq_true hlength, hnodup, hbehind ?_, hcount⟩
  decide

/-- The clock steps back, and the row that goes in then is in no page. -/
theorem audit_row_left_out :
  ∃ w, Runs.run (AuditWorld.step .none Option.none) .start (auditThenInsert 5) = some w
    ∧ auditExportFiltered .none Option.none w.log w.cursor 1000 = []
    ∧ ∃ row ∈ w.log.rows, AuditFilters.none.selects Option.none row = true
        ∧ row ∉ w.delivered
  := by
  have hrun : (Runs.run (AuditWorld.step .none Option.none) .start (auditThenInsert 5)).any
      (fun w => decide (auditExportFiltered .none Option.none w.log w.cursor 1000 = []
        ∧ ∃ row ∈ w.log.rows, AuditFilters.none.selects Option.none row = true
          ∧ row ∉ w.delivered)) = true := by decide
  obtain ⟨w, h, hleft⟩ := (Option.any_eq_true _ _).mp hrun
  exact ⟨w, h, of_decide_eq_true hleft⟩

end Votport
