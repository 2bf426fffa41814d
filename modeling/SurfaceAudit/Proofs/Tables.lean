import SurfaceAudit.Csv.Reader
import SurfaceAudit.Proofs.Growth
import SurfaceAudit.Proofs.Lines
import SurfaceAudit.Proofs.Writing
import SurfaceAudit.Report.Output

/-!
# Tables are read back as they were

A cell of a table holds no line end, whatever stands in the result it is from
(`Report.isUnbroken_of_mem_row`). So a table has one line for each record, and as no record is
empty, the table is read back cell by cell. Both ways to write a table to a file write its text
(`Report.Saves`), if that has bytes at all. The verdicts in the columns of the surfaces are those of
the evidence, the worst of which are the verdicts of the result.
-/

namespace SurfaceAudit

namespace Text

/-- What holds of each point of some texts and of a separator holds of those of the texts joined. -/
theorem forall_mem_join {P : Point → Prop} {sep : Text} (hs : ∀ p ∈ sep, P p) {ts : List Text}
    (h : ∀ t ∈ ts, ∀ p ∈ t, P p) : ∀ p ∈ join sep ts, P p := by
  induction ts with
  | nil => exact fun p hp => absurd hp (by simp [join])
  | cons t r ih =>
    obtain ⟨ht, hr⟩ := List.forall_mem_cons.mp h
    cases r with
    | nil => simpa [join] using ht
    | cons u r =>
      rw [join, List.intercalate_cons_cons]
      exact List.forall_mem_append.mpr ⟨List.forall_mem_append.mpr ⟨ht, hs⟩, ih hr⟩

namespace IsUnbroken

variable {s t : Text}

/-- Two texts without a line end have none in a row. -/
theorem append (hs : s.IsUnbroken) (ht : t.IsUnbroken) : IsUnbroken (s ++ t) :=
  List.forall_mem_append.mpr ⟨hs, ht⟩

/-- What has only code points of a text without a line end has none. -/
theorem of_subset (h : t.IsUnbroken) (hs : s ⊆ t) : s.IsUnbroken := fun p hp => h p (hs hp)

/-- Texts that are joined have no line end if neither they nor the separator have one. -/
theorem join (hs : s.IsUnbroken) {ts : List Text} (h : ∀ t ∈ ts, t.IsUnbroken) :
    (Text.join s ts).IsUnbroken := forall_mem_join hs h

/-- Such a text, and what ends a record after it, are a line. -/
theorem linesFrom (h : t.IsUnbroken) (r line : Text) (done : List Text) :
    Text.linesFrom (t ++ Csv.recordEnd ++ r) line done =
      Text.linesFrom r [] ((line.reverse ++ t) :: done) := by
  rw [List.append_assoc, h.linesFrom_append]
  simp [Csv.recordEnd, Text.linesFrom]

end IsUnbroken

/-- A word has no line end. -/
theorem isUnbroken_of_mem_words {t word : Text} (h : word ∈ t.words) : word.IsUnbroken :=
  fun p hp => Point.endsLine_of_isBlank
    (not_sep_of_mem_fields (List.mem_of_mem_filter h) p hp)

/-- A number consists of digits. -/
theorem digit_of_mem_ofNat {n : Nat} {p : Point} (h : p ∈ ofNat n) : 48 ≤ p.val ∧ p.val ≤ 57 := by
  obtain ⟨c, hc, rfl⟩ := List.mem_map.mp h
  have hdigit : c.isDigit = true := Nat.isDigit_of_mem_toDigits (by decide) (by decide) hc
  have hval : (Point.scalar c).val = c.toNat := rfl
  simpa [hval, Char.isDigit, UInt32.le_iff_toNat_le] using hdigit

/-- A number has no line end. -/
theorem isUnbroken_ofNat (n : Nat) : (ofNat n).IsUnbroken := by
  intro p hp
  obtain ⟨hlow, hhigh⟩ := digit_of_mem_ofNat hp
  simp only [Point.endsLine, Bool.or_eq_false_iff, Bool.and_eq_false_iff, beq_eq_false_iff_ne,
    decide_eq_false_iff_not]
  omega

/-- A number with a sign has no line end. -/
theorem isUnbroken_ofInt : ∀ n : Int, (ofInt n).IsUnbroken
  | .ofNat n => isUnbroken_ofNat n
  | .negSucc n => List.forall_mem_cons.mpr ⟨by decide, isUnbroken_ofNat (n + 1)⟩

end Text

namespace Csv

/-- A cell in quotes has no line end if its text has none. -/
theorem isUnbroken_cell {t : Text} (h : t.IsUnbroken) : (cell t).IsUnbroken := by
  have hquote : (Point.scalar '"').endsLine = false := by decide
  have hescaped : Text.IsUnbroken (t.flatMap escaped) := by
    intro p hp
    obtain ⟨q, hq, hp⟩ := List.mem_flatMap.mp hp
    unfold escaped at hp
    split at hp
    · simp only [List.mem_cons, List.not_mem_nil, or_false, or_self] at hp
      rw [hp, hquote]
    · rw [List.mem_singleton.mp hp]
      exact h q hq
  exact List.forall_mem_cons.mpr ⟨hquote, hescaped.append (by simpa [Text.IsUnbroken] using hquote)⟩

/-- The text of records without line ends in their cells has a line for each record. -/
theorem lines_write {rs : List (List Text)} (h : ∀ r ∈ rs, ∀ t ∈ r, t.IsUnbroken) :
    (write rs).lines = rs.map fun r => Text.join "," (r.map cell) := by
  have hfrom (done : List Text) : Text.linesFrom (write rs) [] done =
      done.reverse ++ rs.map fun r => Text.join "," (r.map cell) := by
    induction rs generalizing done with
    | nil => simp [write, Text.linesFrom]
    | cons r rest ih =>
      have hr : (Text.join "," (r.map cell)).IsUnbroken := by
        refine Text.IsUnbroken.join (by decide) fun t ht => ?_
        obtain ⟨u, hu, rfl⟩ := List.mem_map.mp ht
        exact isUnbroken_cell (h r List.mem_cons_self u hu)
      rw [write, List.flatMap_cons, record, hr.linesFrom]
      exact (ih (fun r hr => h r (List.mem_cons_of_mem _ hr)) _).trans (by simp)
  exact hfrom []

end Csv

namespace Report

/-- A cell that is made no formula has no line end if it had none. -/
theorem isUnbroken_defused {t : Text} (h : t.IsUnbroken) : (defused t).IsUnbroken := by
  unfold defused
  split
  · exact h
  · split
    · exact List.forall_mem_cons.mpr ⟨by decide, h⟩
    · exact h

/-- A text whose blanks are collapsed has no line end. -/
theorem isUnbroken_collapsed (t : Text) : (collapsed t).IsUnbroken :=
  Text.IsUnbroken.join (by decide) fun _ => Text.isUnbroken_of_mem_words

/-- A plain cell has no line end, whatever is put into it. -/
theorem isUnbroken_plainCell (t : Text) : (plainCell t).IsUnbroken :=
  isUnbroken_defused (isUnbroken_collapsed t)

/-- A short cell has no line end, whatever is put into it. -/
theorem isUnbroken_shortCell (limit : Nat) (t : Text) : (shortCell limit t).IsUnbroken := by
  refine isUnbroken_defused ?_
  unfold shortened
  split
  · exact ((isUnbroken_collapsed t).of_subset (List.take_subset _ _)).append (by decide)
  · exact isUnbroken_collapsed t

/-- The cell with the name of a plugin has no line end, whatever the name is. -/
theorem isUnbroken_nameCell (plugin : Text) : (nameCell plugin).IsUnbroken := by
  unfold nameCell
  simp only
  split
  · decide
  · exact isUnbroken_plainCell plugin

/-- A cell of a row has no line end, whatever stands in the evidence. -/
theorem isUnbroken_of_mem_row {plugin : Text} {e : Evidence} {t : Text} (h : t ∈ row plugin e) :
    t.IsUnbroken := by
  have hsource : (defused e.source.name).IsUnbroken := by
    cases e.source <;> decide
  have hline : ((e.line.map Text.ofInt).getD []).IsUnbroken := by
    cases e.line with
    | none => decide
    | some n => exact Text.isUnbroken_ofInt n
  have hverdict (u : Target) : (e.impact.on u).name.IsUnbroken := by
    cases e.impact.on u <;> decide
  simp only [row, Target.all, List.map_cons, List.map_nil, List.cons_append, List.nil_append,
    List.mem_cons, List.not_mem_nil, or_false] at h
  -- One cell after the other: only the texts from the plugin could hold a line end, and these are
  -- made plain.
  rcases h with rfl | rfl | rfl | rfl | rfl | rfl | rfl | rfl | rfl
  · exact isUnbroken_nameCell plugin
  · exact hsource
  · exact isUnbroken_plainCell e.file
  · exact hline
  · exact isUnbroken_shortCell 200 e.signal
  · exact isUnbroken_shortCell 500 e.detail
  · exact hverdict .desktop
  · exact hverdict .cowork
  · exact hverdict .code

/-- A record of a table has a cell for each column. -/
theorem length_of_mem_records {rs : List Result} {record : List Text} (h : record ∈ records rs) :
    record.length = columns.length := by
  rcases List.mem_cons.mp h with rfl | h
  · rfl
  · obtain ⟨r, -, hr⟩ := List.mem_flatMap.mp h
    obtain ⟨e, -, rfl⟩ := List.mem_map.mp hr
    rfl

/-- A cell of a table has no line end. -/
theorem isUnbroken_of_mem_records {rs : List Result} {record : List Text}
    (h : record ∈ records rs) : ∀ t ∈ record, t.IsUnbroken := by
  rcases List.mem_cons.mp h with rfl | h
  · decide
  · obtain ⟨r, -, hr⟩ := List.mem_flatMap.mp h
    obtain ⟨e, -, rfl⟩ := List.mem_map.mp hr
    exact fun t ht => isUnbroken_of_mem_row ht

/-- A table is read back as its records. -/
theorem read_table (rs : List Result) : Csv.read (table rs) = some (records rs) := by
  refine Csv.read_write fun record h => List.ne_nil_of_length_pos ?_
  rw [length_of_mem_records h]
  decide

/-- A table has a line for the names of the columns and one for each piece of evidence. -/
theorem length_lines_table (rs : List Result) :
    (table rs).lines.length = 1 + (rs.map (·.evidence.length)).sum := by
  rw [table, Csv.lines_write fun record h => isUnbroken_of_mem_records h]
  simp [records, rows, List.length_flatMap, Nat.add_comm]

/-- The cell of a row in the column with a name. -/
def cellUnder (column : Text) (row : List Text) : Text := row.getD (columns.idxOf column) []

/-- The verdict for a surface is in its column. -/
theorem ofText?_cellUnder (plugin : Text) (e : Evidence) (t : Target) :
    Verdict.ofText? (cellUnder t.name (row plugin e)) = some (e.impact.on t) := by
  have hcell : cellUnder t.name (row plugin e) = (e.impact.on t).name := by cases t <;> rfl
  rw [hcell]
  cases e.impact.on t <;> decide

end Report

/-- The worst of some impacts on a surface is the worst of their verdicts there. -/
theorem Impact.worst_on (is : List Impact) (t : Target) :
    (worst is).on t = Verdict.worst (is.map (·.on t)) := by
  have hfrom (a : Impact) : (is.foldl worse a).on t =
      (is.map (·.on t)).foldl Verdict.worse (a.on t) := by
    induction is generalizing a with
    | nil => rfl
    | cons i r ih => rw [List.foldl_cons, ih, on_worse, List.map_cons, List.foldl_cons]
  rw [worst, hfrom, on_none]
  rfl

namespace Utf8

/-- A text has bytes if it has no lone surrogate; they are those of its code points. -/
theorem encode_eq_ok_iff {t : Text} {bytes : List UInt8} :
    encode t = .ok bytes ↔ (∀ p ∈ t, isLone p = false) ∧ bytes = t.flatMap encodePoint := by
  have hnone : t.dropWhile (!isLone ·) = [] ↔ ∀ p ∈ t, isLone p = false := by
    rw [List.dropWhile_eq_nil_iff]
    simp
  rw [← hnone]
  unfold encode
  simp only [List.span_eq_takeWhile_dropWhile]
  cases t.dropWhile (!isLone ·) with
  | nil => simp [eq_comm]
  | cons p r => simp

/-- Two texts have bytes exactly when they have them one after the other. -/
theorem encode_append_eq_ok_iff {s t : Text} {bytes : List UInt8} :
    encode (s ++ t) = .ok bytes ↔
      ∃ b b', encode s = .ok b ∧ encode t = .ok b' ∧ bytes = b ++ b' := by
  simp only [encode_eq_ok_iff, List.forall_mem_append, List.flatMap_append]
  constructor
  · rintro ⟨⟨hs, ht⟩, rfl⟩
    exact ⟨_, _, ⟨hs, rfl⟩, ⟨ht, rfl⟩, rfl⟩
  · rintro ⟨b, b', ⟨hs, rfl⟩, ⟨ht, rfl⟩, rfl⟩
    exact ⟨⟨hs, ht⟩, rfl⟩

end Utf8

namespace Report

/-- A draft of records is their text, if that has bytes. Otherwise it ends before the first record
that has none. -/
theorem tableDraftFrom_cases (records : List (List Text)) (done : List UInt8) :
    (∃ bytes, Utf8.encode (Csv.write records) = .ok bytes ∧
      tableDraftFrom records done = ⟨done ++ bytes, none⟩) ∨
    ∃ before r after bytes o, records = before ++ r :: after ∧
      Utf8.encode (Csv.write before) = .ok bytes ∧ Utf8.encode (Csv.record r) = .error o ∧
      tableDraftFrom records done = ⟨done ++ bytes, some (.unencodable o)⟩ := by
  induction records generalizing done with
  | nil => exact .inl ⟨[], rfl, by rw [tableDraftFrom, List.append_nil]⟩
  | cons r rest ih =>
    rw [tableDraftFrom]
    cases hr : Utf8.encode (Csv.record r) with
    | error o => exact .inr ⟨[], r, rest, [], o, rfl, rfl, hr, by rw [List.append_nil]⟩
    | ok b =>
      -- A record that has bytes goes before those of the others, whether or not one of these fails.
      have hcons {rs : List (List Text)} {bytes : List UInt8}
          (h : Utf8.encode (Csv.write rs) = .ok bytes) :
          Utf8.encode (Csv.write (r :: rs)) = .ok (b ++ bytes) :=
        Utf8.encode_append_eq_ok_iff.mpr ⟨b, bytes, hr, h, rfl⟩
      dsimp only
      rcases ih (done ++ b) with ⟨bytes, hb, hd⟩ | ⟨before, x, after, bytes, o, rfl, hb, hx, hd⟩
      · exact .inl ⟨b ++ bytes, hcons hb, by rw [hd, List.append_assoc]⟩
      · exact .inr ⟨r :: before, x, after, b ++ bytes, o, rfl, hcons hb, hx,
          by rw [hd, List.append_assoc]⟩

/-- Records one of which has no bytes have none. -/
theorem encode_write_ne_ok {before after : List (List Text)} {r : List Text} {o : Utf8.Obstacle}
    (h : Utf8.encode (Csv.record r) = .error o) (bytes : List UInt8) :
    Utf8.encode (Csv.write (before ++ r :: after)) ≠ .ok bytes := by
  intro hb
  rw [Csv.write, List.flatMap_append, List.flatMap_cons] at hb
  obtain ⟨_, _, -, hr, -⟩ := Utf8.encode_append_eq_ok_iff.mp hb
  obtain ⟨_, _, hr, -⟩ := Utf8.encode_append_eq_ok_iff.mp hr
  rw [h] at hr
  cases hr

/-- A run that writes the text of a table to a file: it ends well exactly when there is a place for
the file, the text has bytes and they can be written there. Then they are read from the file, whose
path is the answer. -/
structure Saves (rs : List Result) (place : Attempt Text) (d : Disk)
    (run : Attempt Text × Disk) : Prop where
  /-- When it ends well. -/
  ok_iff : ∀ plain d', run = (.ok plain, d') ↔
    place = .ok plain ∧ ∃ bytes, Utf8.encode (table rs) = .ok bytes ∧ d.write plain bytes = .ok d'
  /-- What is read afterwards. -/
  read : ∀ plain d', run = (.ok plain, d') →
    ∃ bytes, Utf8.encode (table rs) = .ok bytes ∧ d'.read plain = .ok bytes
  /-- A text without bytes is cut: what stands before the first record that has none is written. -/
  cut : ∀ plain o, place = .ok plain → Utf8.encode (table rs) = .error o →
    ∃ before record after bytes o', records rs = before ++ record :: after ∧
      Utf8.encode (Csv.write before) = .ok bytes ∧ Utf8.encode (Csv.record record) = .error o' ∧
      ∀ d', d.write plain bytes = .ok d' → run = (.error (.unencodable o'), d')

/-- The place of a file for a table: the path that is given, or a name in the current directory. -/
def destination (d : Disk) (name path : Text) : Attempt Text :=
  if path.isEmpty then d.plain name else place d path

/-- The path that a report may be written to is absolute. -/
theorem exists_absolute_of_place {d : Disk} {path plain : Text} (h : place d path = .ok plain) :
    ∃ names, plain = Path.absolute names := by
  unfold place at h
  split at h
  · cases h
  obtain ⟨names, -, h⟩ := Attempt.bind_eq_ok_iff.mp h
  refine ⟨names, ?_⟩
  dsimp only at h
  split at h
  · cases h
  obtain ⟨parentThere, -, h⟩ := Attempt.bind_eq_ok_iff.mp h
  split at h
  · cases h
  split at h
  · obtain ⟨there, -, h⟩ := Attempt.bind_eq_ok_iff.mp h
    split at h
    · cases h
    · exact (Except.ok.inj h).symm
  · exact (Except.ok.inj h).symm

/-- The place of a file for a table has an absolute path. -/
theorem exists_absolute_of_destination {d : Disk} {name path plain : Text}
    (h : destination d name path = .ok plain) : ∃ names, plain = Path.absolute names := by
  unfold destination at h
  split at h
  · obtain ⟨names, -, rfl⟩ := Attempt.map_eq_ok_iff.mp h
    exact ⟨names, rfl⟩
  · exact exists_absolute_of_place h

/-- Writes a draft at a place that was looked for, and answers with the place. -/
def writeAt (d : Disk) (place : Attempt Text) (draft : Draft) : Attempt Text × Disk :=
  match place with
  | .error f => (.error f, d)
  | .ok plain =>
    match write d plain draft with
    | (.ok (), d) => (.ok plain, d)
    | (.error f, d) => (.error f, d)

/-- A draft for which a path is given, or not, is written at its destination. -/
theorem writeAt_destination (d : Disk) (name path : Text) (draft : Draft) :
    (if path.isEmpty then writeNamed d name draft else writeTo d path draft) =
      writeAt d (destination d name path) draft := by
  unfold destination writeAt
  by_cases hp : path.isEmpty = true
  · rw [if_pos hp, if_pos hp]
    unfold writeNamed
    cases d.plain name <;> rfl
  · rw [if_neg hp, if_neg hp]
    unfold writeTo
    cases place d path <;> rfl

/-- A draft of a table that is written at its destination is its text. -/
theorem saves_writeAt (d : Disk) (rs : List Result) (name path : Text) :
    Saves rs (destination d name path) d
      (writeAt d (destination d name path) (tableDraft rs)) := by
  -- What is written is the draft, and the draft is the text or stops before the first record
  -- without bytes.
  have hok : ∀ plain d', writeAt d (destination d name path) (tableDraft rs) = (.ok plain, d') ↔
      destination d name path = .ok plain ∧
        ∃ bytes, Utf8.encode (table rs) = .ok bytes ∧ d.write plain bytes = .ok d' := by
    intro plain d'
    unfold writeAt
    cases hplace : destination d name path with
    | error f => simp
    | ok place =>
      simp only [Except.ok.injEq]
      rcases tableDraftFrom_cases (records rs) [] with
        ⟨bytes, hb, hd⟩ | ⟨before, r, after, bytes, o, hrs, hb, hr, hd⟩
      · rw [show tableDraft rs = ⟨bytes, none⟩ from hd, table, hb]
        unfold write
        cases hw : d.write place bytes <;> simp +contextual [hw, eq_comm]
      · have hno : ∀ bytes, Utf8.encode (table rs) ≠ .ok bytes := by
          rw [table, hrs]
          exact encode_write_ne_ok hr
        rw [show tableDraft rs = ⟨bytes, some (.unencodable o)⟩ from hd]
        unfold write
        cases d.write place bytes <;> simp [hno]
  constructor
  case ok_iff => exact hok
  case read =>
    intro plain d' h
    obtain ⟨hplace, bytes, hb, hw⟩ := (hok plain d').mp h
    obtain ⟨names, rfl⟩ := exists_absolute_of_destination hplace
    exact ⟨bytes, hb, Disk.read_of_write_absolute hw⟩
  case cut =>
    intro plain o hplace ho
    rcases tableDraftFrom_cases (records rs) [] with
      ⟨bytes, hb, -⟩ | ⟨before, r, after, bytes, o', hrs, hb, hr, hd⟩
    · rw [table, hb] at ho
      cases ho
    · refine ⟨before, r, after, bytes, o', hrs, hb, hr, fun d' hw => ?_⟩
      rw [hplace, writeAt]
      rw [show tableDraft rs = ⟨bytes, some (.unencodable o')⟩ from hd, write, hw]

/-- The table of a result is its text, wherever it is written. -/
theorem saves_writeTable (d : Disk) (r : Result) (path : Text) :
    Saves [r] (destination d (tableName r.plugin) path) d (writeTable d r path) := by
  rw [writeTable, writeAt_destination]
  exact saves_writeAt d [r] (tableName r.plugin) path

/-- The table of a sweep is its text, wherever it is written. -/
theorem saves_writeSweepTable (d : Disk) (rs : List Result) (path : Text) :
    Saves rs (destination d sweepTableName path) d (writeSweepTable d rs path) := by
  rw [writeSweepTable, writeAt_destination]
  exact saves_writeAt d rs sweepTableName path

end Report

/-- A table holds what its results hold. Its text is read back as the names of the columns and then,
result by result, a row for each piece of evidence, with a cell for each of the nine columns. The
text has a line for each record, whatever line ends there are in the texts of the results. Both a
table of a result and one of the results of a sweep are written to a file exactly if their text has
bytes, and then the file holds that text. The rows of a result of an analysis have its verdicts: on
each surface, the worst verdict in its column is the one of the result, which is compatible without
any rows. -/
theorem tables_hold_results :
    (∀ rs : List Result,
      Csv.read (Report.table rs) = some (Report.columns ::
        rs.flatMap fun r => r.evidence.map fun e => Report.row r.plugin e) ∧
      (∀ record ∈ Report.records rs, record.length = 9) ∧
      (Report.table rs).lines.length = 1 + (rs.map (·.evidence.length)).sum) ∧
    (∀ (d : Disk) (r : Result) (path : Text),
      Report.Saves [r] (Report.destination d (Report.tableName r.plugin) path) d
        (Report.writeTable d r path)) ∧
    (∀ (d : Disk) (es : List BatchEntry) (path : Text),
      Report.Saves (es.filterMap (·.result)) (Report.destination d Report.sweepTableName path) d
        (Report.writeSweepTable d (es.filterMap (·.result)) path)) ∧
    ∀ (a : Analyzer) (d : Disk) (path : Text) (r : Result), a.analyze d path = .ok r →
      ∀ t : Target, ∃ vs,
        (Report.rows r).mapM (fun row => Verdict.ofText? (Report.cellUnder t.name row)) = some vs ∧
          Verdict.worst vs = r.analyzed.on t := by
  refine ⟨fun rs => ⟨Report.read_table rs, fun record h => Report.length_of_mem_records h,
    Report.length_lines_table rs⟩, Report.saves_writeTable,
    fun d es => Report.saves_writeSweepTable d _, ?_⟩
  intro a d path r h t
  obtain ⟨c, found, notes, -, rfl⟩ := Analyzer.exists_of_analyze h
  generalize hr : Analyzer.resultOf c found notes = r
  have hverdicts : r.analyzed = Evidence.verdicts r.evidence := by rw [← hr]; rfl
  refine ⟨r.evidence.map fun e => e.impact.on t, ?_, ?_⟩
  · rw [Report.rows, List.mapM_map]
    simp only [Function.comp_def, Report.ofText?_cellUnder]
    exact List.mapM_pure
  · rw [hverdicts, Evidence.verdicts, Impact.worst_on, List.map_map]
    rfl

/-- The table of a plugin with a script has a row, and its verdicts are those of the result. -/
theorem table_of_scripted_holds_verdicts :
    ∃ r, bundledAnalyzer.analyze scriptedDisk "/p" = .ok r ∧ (Report.rows r).length = 1 ∧
      ∀ t : Target, ∃ vs,
        (Report.rows r).mapM (fun row => Verdict.ofText? (Report.cellUnder t.name row)) = some vs ∧
          Verdict.worst vs = r.analyzed.on t := by
  obtain ⟨r, hr, hsources⟩ := Attempt.map_eq_ok_iff.mp sources_scripted
  refine ⟨r, hr, ?_, tables_hold_results.2.2.2 bundledAnalyzer scriptedDisk "/p" r hr⟩
  simpa [Report.rows] using congrArg List.length hsources

/-- A result with evidence, for a plugin whose name is a lone surrogate. -/
def halfNamed : Result where
  plugin := [.surrogate ⟨0, by decide⟩]
  version := none
  declared := none
  analyzed := .none
  evidence := [⟨.script, "a.sh", none, "shell-script", "Script", .none⟩]
  summary := ⟨1, 0, 1, 0, 0⟩
  errors := []

/-- A disk without files. -/
def blankDisk : Disk := ⟨.directory [], []⟩

/-- A table with a lone surrogate is not written as a whole: the run fails when it comes to the row
with the surrogate, and the file has nothing but the names of the columns. -/
theorem table_is_cut_at_surrogate :
    (Report.writeTable blankDisk halfNamed "/r.csv").1 = .error (.unencodable ⟨1, 1, 0xD800⟩) ∧
      (Report.writeTable blankDisk halfNamed "/r.csv").2.read "/r.csv" =
        Except.mapError Fault.unencodable (Utf8.encode (Csv.record Report.columns)) ∧
      (Report.table [halfNamed]).lines.length = 2 := by
  decide +kernel

end SurfaceAudit
