import HardcodedText.Report.Csv

/-!
# Reading tables back

A reader of comma-separated values, character by character (`Csv.Reader`).  It takes nothing for
granted: outside of quotes it accepts no quote, carriage return or line feed that is not part of the
format, and what it does not accept has no reading at all.

Whatever stands in the fields, it reads back the records that were written (`foldlM_step_table`).
So the table of diagnostics is read as the names of the fields and one record for each diagnostic
(`read_render`).
-/

namespace HardcodedText.Csv

/-- Where a reader stands. -/
inductive Mode
  /-- Before the first character of a field. -/
  | start
  /-- In a field without quotes. -/
  | bare
  /-- Between the quotes of a field. -/
  | quoted
  /-- After a quote between quotes, which ends the field unless it is the first of two. -/
  | closing
  /-- After the carriage return that ends a record. -/
  | ending
deriving DecidableEq, Repr

/-- A reader with what it has read. -/
structure Reader where
  /-- Where it stands. -/
  mode : Mode := .start
  /-- The characters of the present field. -/
  field : List Char := []
  /-- The fields of the present record before the present one. -/
  record : List (List Char) := []
  /-- The records before the present one. -/
  table : List (List (List Char)) := []
deriving DecidableEq, Repr

namespace Reader

/-- Reads one character. -/
def step (r : Reader) (c : Char) : Option Reader :=
  match r.mode with
  | .quoted =>
    some (if c = '"' then { r with mode := .closing } else { r with field := r.field ++ [c] })
  | .ending =>
    if c = '\n' then some { table := r.table ++ [r.record ++ [r.field]] } else none
  | mode =>
    if c = ',' then some { r with mode := .start, field := [], record := r.record ++ [r.field] }
    else if c = '\r' then some { r with mode := .ending }
    else if c = '"' then
      match mode with
      | .start => some { r with mode := .quoted }
      | .closing => some { r with mode := .quoted, field := r.field ++ ['"'] }
      | _ => none
    else if c = '\n' ∨ mode = .closing then none
    else some { r with mode := .bare, field := r.field ++ [c] }

/-- The records when the text is over.  The last one need not be ended. -/
def finish (r : Reader) : Option (List (List (List Char))) :=
  match r.mode with
  | .quoted | .ending => none
  | .start => some (if r.record = [] then r.table else r.table ++ [r.record ++ [r.field]])
  | _ => some (r.table ++ [r.record ++ [r.field]])

/-- A field is complete: it may end here. -/
def Complete (mode : Mode) : Prop :=
  mode = .start ∨ mode = .bare ∨ mode = .closing

end Reader

/-- The records of a text, if it is one of comma-separated values. -/
def read (text : String) : Option (List (List String)) :=
  ((text.toList.foldlM Reader.step {}).bind Reader.finish).map (·.map (·.map .ofList))

/-! ## Fields -/

theorem needsQuotes_cons (c : Char) (cs : List Char) :
    needsQuotes (c :: cs) = (needsQuotes [c] || needsQuotes cs) := by
  simp [needsQuotes]

namespace Reader

variable {field : List Char} {record : List (List Char)} {table : List (List (List Char))}

/-- Reading goes on where it has come to. -/
theorem foldlM_step_append {r r' : Reader} {cs : List Char} (h : cs.foldlM step r = some r')
    (ds : List Char) : (cs ++ ds).foldlM step r = ds.foldlM step r' := by
  rw [List.foldlM_append, h]
  rfl

theorem foldlM_step_cons {r r' : Reader} {c : Char} (h : step r c = some r') (ds : List Char) :
    (c :: ds).foldlM step r = ds.foldlM step r' := by
  rw [List.foldlM_cons, h]
  rfl

theorem step_comma {mode : Mode} (h : Complete mode) :
    step ⟨mode, field, record, table⟩ ',' = some ⟨.start, [], record ++ [field], table⟩ := by
  rcases h with rfl | rfl | rfl <;> rfl

/-- A record ends with a carriage return and a line feed. -/
theorem foldlM_step_lineEnd {mode : Mode} (h : Complete mode) :
    ['\r', '\n'].foldlM step ⟨mode, field, record, table⟩ =
      some { table := table ++ [record ++ [field]] } := by
  rcases h with rfl | rfl | rfl <;> rfl

/-- Two quotes between quotes are one. -/
theorem foldlM_step_doubled (cs : List Char) :
    (cs.flatMap fun c ↦ if c = '"' then ['"', '"'] else [c]).foldlM step
        ⟨.quoted, field, record, table⟩ =
      some ⟨.quoted, field ++ cs, record, table⟩ := by
  induction cs generalizing field with
  | nil => simp
  | cons c cs ih =>
    have hchar : (if c = '"' then ['"', '"'] else [c]).foldlM step
        ⟨.quoted, field, record, table⟩ = some ⟨.quoted, field ++ [c], record, table⟩ := by
      by_cases hc : c = '"'
      · subst hc
        rfl
      · simp [step, hc]
    rw [List.flatMap_cons, foldlM_step_append hchar, ih, List.append_assoc]
    rfl

theorem foldlM_step_quote (cs : List Char) :
    (quote cs).foldlM step ⟨.start, [], record, table⟩ =
      some ⟨.closing, cs, record, table⟩ := by
  have hopen : step ⟨.start, [], record, table⟩ '"' = some ⟨.quoted, [], record, table⟩ := rfl
  rw [quote, List.cons_append, foldlM_step_cons hopen, foldlM_step_append (foldlM_step_doubled cs)]
  rfl

/-- A character that needs no quotes is part of a bare field. -/
theorem step_bare {mode : Mode} (h : mode = .start ∨ mode = .bare) {c : Char}
    (hc : needsQuotes [c] = false) :
    step ⟨mode, field, record, table⟩ c = some ⟨.bare, field ++ [c], record, table⟩ := by
  simp only [needsQuotes, List.any_cons, List.any_nil, Bool.or_false, Bool.or_eq_false_iff,
    beq_eq_false_iff_ne] at hc
  obtain ⟨⟨⟨hcomma, hquote⟩, hreturn⟩, hfeed⟩ := hc
  rcases h with rfl | rfl <;> simp [step, hcomma, hquote, hreturn, hfeed]

theorem foldlM_step_bare {cs : List Char} (h : needsQuotes cs = false) :
    cs.foldlM step ⟨.bare, field, record, table⟩ = some ⟨.bare, field ++ cs, record, table⟩ := by
  induction cs generalizing field with
  | nil => simp
  | cons c cs ih =>
    rw [needsQuotes_cons, Bool.or_eq_false_iff] at h
    rw [foldlM_step_cons (step_bare (.inr rfl) h.1), ih h.2, List.append_assoc]
    rfl

/-- A field is read as it was, with or without quotes. -/
theorem exists_foldlM_step_writeField (cs : List Char) (record table) :
    ∃ mode, Complete mode ∧ (writeField cs).foldlM step ⟨.start, [], record, table⟩ =
      some ⟨mode, cs, record, table⟩ := by
  unfold writeField
  split
  · exact ⟨.closing, .inr (.inr rfl), foldlM_step_quote cs⟩
  · next h =>
    cases cs with
    | nil => exact ⟨.start, .inl rfl, rfl⟩
    | cons c cs =>
      rw [Bool.not_eq_true, needsQuotes_cons, Bool.or_eq_false_iff] at h
      refine ⟨.bare, .inr (.inl rfl), ?_⟩
      rw [foldlM_step_cons (step_bare (.inl rfl) h.1), foldlM_step_bare h.2]
      rfl

/-! ## Records -/

/-- The fields of a record are read one after another. -/
theorem foldlM_step_writeRecord {fields : List (List Char)} (h : fields ≠ []) :
    (writeRecord fields).foldlM step ⟨.start, [], record, table⟩ =
      some { table := table ++ [record ++ fields] } := by
  induction fields generalizing record with
  | nil => exact absurd rfl h
  | cons cs fields ih =>
    obtain ⟨mode, hmode, hfield⟩ := exists_foldlM_step_writeField cs record table
    cases fields with
    | nil =>
      rw [writeRecord, List.map_singleton, List.intercalate_singleton, foldlM_step_append hfield,
        foldlM_step_lineEnd hmode]
    | cons ds fields =>
      have hwritten : writeRecord (cs :: ds :: fields) =
          writeField cs ++ ',' :: writeRecord (ds :: fields) := by
        simp [writeRecord, List.intercalate_cons_cons]
      rw [hwritten, foldlM_step_append hfield, foldlM_step_cons (step_comma hmode),
        ih (List.cons_ne_nil _ _), List.append_assoc]
      rfl

/-- Records are read as they were, whatever stands in their fields. -/
theorem foldlM_step_table {records : List (List (List Char))} (h : [] ∉ records) (table) :
    (records.flatMap writeRecord).foldlM step { table := table } =
      some { table := table ++ records } := by
  induction records generalizing table with
  | nil => simp
  | cons fields records ih =>
    rw [List.mem_cons, not_or] at h
    rw [List.flatMap_cons, foldlM_step_append (foldlM_step_writeRecord (Ne.symm h.1)), ih h.2,
      List.append_assoc]
    rfl

end Reader

/-- A table whose records all have a field is read as it was. -/
theorem read_writeRecords {records : List (List String)} (h : [] ∉ records) :
    read (.ofList (records.flatMap fun fields ↦ writeRecord (fields.map String.toList))) =
      some records := by
  have hchars : [] ∉ records.map (·.map String.toList) := by
    simpa using h
  have hread := Reader.foldlM_step_table hchars []
  rw [List.flatMap_map] at hread
  rw [read, String.toList_ofList, hread]
  simp [Reader.finish, Function.comp_def]

example : read "a,\"b\"\"\r\n,\"\r\n,\r\n" = some [["a", "b\"\r\n,"], ["", ""]] := by decide

example : read "a\"b\"\r\n" = none := by decide

/-! ## Diagnostics -/

/-- The names of the fields of every diagnostic. -/
def fieldNames : List String :=
  ["file_path", "line", "column", "message", "kind", "value", "suggestion", "context_name",
    "code_frame"]

/-- The fields of a diagnostic as text.  A context that is missing is empty. -/
def fieldTexts (d : Diagnostic) : List String :=
  [d.finding.path, toString d.finding.line, toString d.finding.column, d.finding.message,
    d.finding.kind.label, d.finding.value, d.finding.suggestion, d.finding.context.getD "", d.frame]

theorem header_eq (d : Diagnostic) : header d = fieldNames := rfl

theorem record_eq (d : Diagnostic) : record d = fieldTexts d := by
  obtain ⟨⟨path, line, column, message, kind, value, suggestion, context⟩, frame⟩ := d
  cases context <;> rfl

/-- The table of diagnostics is read as the names of the fields and the fields of each diagnostic,
in order. -/
theorem read_render (d : Diagnostic) (ds : List Diagnostic) :
    read (render (d :: ds)) = some (fieldNames :: (d :: ds).map fieldTexts) := by
  have htable : table (d :: ds) = fieldNames :: (d :: ds).map fieldTexts := by
    rw [table, header_eq, funext record_eq]
  rw [render, htable]
  refine read_writeRecords ?_
  simp [fieldNames, fieldTexts]

end HardcodedText.Csv
