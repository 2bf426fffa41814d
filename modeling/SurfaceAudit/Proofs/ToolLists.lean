import SurfaceAudit.Proofs.FirstSeen
import SurfaceAudit.Proofs.Runs
import SurfaceAudit.Proofs.Tolerance

/-!
# Tools in a text and in a list

Authors write the tools that a document allows into one text, with commas and blanks between them
(`Declaration.Joins`), or as the elements of a list (`Declaration.Lists`). In the text the names are
found by where they begin and end (`Declaration.Joins.namesFrom_eq`), and in the list each element
is trimmed (`Declaration.nameOf_spaced`). Both ways give the names of the tools in order
(`Declaration.Writes.toolNames_eq`), and so the same evidence (`tool_lists_agree`).
-/

namespace SurfaceAudit

namespace Declaration

open Text

/-- A tool as authors write it: a name, and arguments in brackets if it has any. -/
structure Tool where
  /-- The name. -/
  name : Text
  /-- What stands between the brackets. -/
  arguments : Option Text
  /-- The name is not empty. -/
  name_ne_nil : name ≠ []
  /-- The name has word characters and hyphens only. -/
  isNamePart_of_mem : ∀ p ∈ name, isNamePart p = true
  /-- The arguments do not close the bracket. -/
  notMem_arguments : ∀ a ∈ arguments, .scalar ')' ∉ a

namespace Tool

/-- The brackets after the name. -/
def brackets (tool : Tool) : Text :=
  match tool.arguments with
  | none => []
  | some a => .scalar '(' :: (a ++ [.scalar ')'])

/-- The tool as it is written. -/
def text (tool : Tool) : Text := tool.name ++ tool.brackets

end Tool

/-- A comma or a blank. -/
def isSeparator (p : Point) : Bool := p == ',' || p.isBlank

/-- A text joins tools: they stand in it in order, with separators around them, and one at least
between two of them. -/
inductive Joins : List Tool → Text → Prop where
  /-- Nothing. -/
  | nil : Joins [] []
  /-- A separator. -/
  | separator {p : Point} {tools : List Tool} {t : Text} (separates : isSeparator p = true)
      (rest : Joins tools t) : Joins tools (p :: t)
  /-- A tool, which goes up to a separator. -/
  | tool {tool : Tool} {tools : List Tool} {t : Text}
      (apart : ∀ p ∈ t.head?, isSeparator p = true) (rest : Joins tools t) :
      Joins (tool :: tools) (tool.text ++ t)

/-- The elements of a list are tools in order, each with blanks around it, and there may be nothing
in between. -/
inductive Lists : List Tool → List Value → Prop where
  /-- Nothing. -/
  | nil : Lists [] []
  /-- An element that is nothing. -/
  | null {tools : List Tool} {vs : List Value} (rest : Lists tools vs) :
      Lists tools (.null :: vs)
  /-- A tool. -/
  | tool {tool : Tool} {tools : List Tool} {a b : Text} {vs : List Value} (before : a.IsBlank)
      (after : b.IsBlank) (rest : Lists tools vs) :
      Lists (tool :: tools) (.text (a ++ (tool.text ++ b)) :: vs)

/-- A value stands for tools: a text that joins them, or a list of them. -/
inductive Writes (tools : List Tool) : Value → Prop where
  /-- A text. -/
  | joined {t : Text} (joins : Joins tools t) : Writes tools (.text t)
  /-- A list. -/
  | listed {vs : List Value} (lists : Lists tools vs) : Writes tools (.list vs)

/-- The tools as they are written, one after the other, are a list of them. -/
theorem lists_texts (tools : List Tool) : Lists tools (tools.map fun t => .text t.text) := by
  induction tools with
  | nil => exact .nil
  | cons tool tools ih =>
    have hnone : IsBlank [] := by simp [IsBlank]
    have h : Lists (tool :: tools) _ := .tool hnone hnone ih
    rwa [List.nil_append, List.append_nil] at h

/-- Separators in front join nothing more. -/
theorem Joins.append {tools : List Tool} {s t : Text} (hs : ∀ p ∈ s, isSeparator p = true)
    (h : Joins tools t) : Joins tools (s ++ t) := by
  induction s with
  | nil => exact h
  | cons p s ih =>
    obtain ⟨hp, hs⟩ := List.forall_mem_cons.mp hs
    exact .separator hp (ih hs)

/-- Tools with separators between them, the same each time, are joined. -/
theorem joins_join {sep : Text} (hne : sep ≠ []) (hsep : ∀ p ∈ sep, isSeparator p = true)
    (tools : List Tool) : Joins tools (Text.join sep (tools.map Tool.text)) := by
  induction tools with
  | nil => exact .nil
  | cons tool tools ih =>
    cases tools with
    | nil =>
      have h : Joins [tool] _ := .tool (by simp) .nil
      simpa [Text.join] using h
    | cons next tools =>
      have hjoin : Text.join sep ((tool :: next :: tools).map Tool.text) =
          tool.text ++ (sep ++ Text.join sep ((next :: tools).map Tool.text)) := by
        simp [Text.join, List.intercalate]
      rw [hjoin]
      refine .tool (fun p hp => ?_) (ih.append hsep)
      rw [List.head?_append_of_ne_nil _ hne] at hp
      exact hsep p (List.mem_of_mem_head? hp)

/-! ## Where names begin and end -/

/-- A separator is no part of a name. -/
theorem isNamePart_of_isSeparator {p : Point} (h : isSeparator p = true) :
    isNamePart p = false := by
  unfold isSeparator at h
  rcases Bool.or_eq_true_iff.mp h with hcomma | hblank
  · rw [eq_of_beq hcomma]
    decide
  · have hhyphen : p ≠ .scalar '-' := by
      rintro rfl
      exact absurd hblank (by decide)
    simp [isNamePart, Point.isWord_of_isBlank hblank, hhyphen]

/-- A blank is no part of a name. -/
theorem isBlank_of_isNamePart {p : Point} (h : isNamePart p = true) : p.isBlank = false := by
  by_contra hblank
  rw [Bool.not_eq_false] at hblank
  have hseparator : isSeparator p = true := by simp [isSeparator, hblank]
  rw [isNamePart_of_isSeparator hseparator] at h
  cases h

/-- A bracket is no part of a name. -/
theorem ne_bracket_of_isNamePart {p : Point} (h : isNamePart p = true) : p ≠ .scalar '(' := by
  rintro rfl
  exact absurd h (by decide)

/-- The name of a tool ends before its brackets or before a separator. -/
theorem isPast_brackets (tool : Tool) {t : Text} (ht : ∀ p ∈ t.head?, isSeparator p = true) :
    IsPast isNamePart (tool.brackets ++ t) := by
  have hpast : IsPast isNamePart t := fun p hp => isNamePart_of_isSeparator (ht p hp)
  unfold Tool.brackets
  cases tool.arguments with
  | none => exact hpast
  | some a => exact isPast_cons.mpr (by decide)

/-- The arguments of a tool are passed over, and nothing else is. -/
theorem afterArguments_brackets (tool : Tool) {t : Text}
    (ht : ∀ p ∈ t.head?, isSeparator p = true) : afterArguments (tool.brackets ++ t) = t := by
  unfold Tool.brackets
  cases hargs : tool.arguments with
  | none =>
    cases t with
    | nil => rfl
    | cons p t =>
      have hp : p ≠ .scalar '(' := by
        rintro rfl
        exact absurd (ht _ rfl) (by decide)
      show afterArguments (p :: t) = p :: t
      unfold afterArguments
      split
      · rename_i heq
        exact absurd (List.cons.inj heq).1 hp
      · rfl
  | some a =>
    have hopen : ∀ p ∈ a, (p != Point.scalar ')') = true := by
      intro p hp
      refine bne_iff_ne.mpr ?_
      rintro rfl
      exact tool.notMem_arguments a hargs hp
    have hclose : IsPast (· != Point.scalar ')') (.scalar ')' :: t) := isPast_cons.mpr (by simp)
    -- The arguments have no closing bracket in them, so the first one that comes is theirs.
    have hdrop : (a ++ .scalar ')' :: t).dropWhile (· != Point.scalar ')') = .scalar ')' :: t :=
      dropWhile_run hopen hclose
    show afterArguments (.scalar '(' :: (a ++ [.scalar ')'] ++ t)) = t
    rw [afterArguments, List.append_assoc, List.singleton_append, hdrop]

/-- The names that are found in a text that joins tools are those of the tools. -/
theorem Joins.namesFrom_eq {tools : List Tool} {t : Text} (h : Joins tools t) {bound : Nat}
    (hbound : t.length < bound) : namesFrom bound t = tools.map (·.name) := by
  -- On the tools in the text; the bound leaves room for each of them.
  induction h generalizing bound with
  | nil =>
    cases bound with
    | zero => rfl
    | succ bound => rfl
  | @separator p tools t hp _ ih =>
    cases bound with
    | zero => cases hbound
    | succ bound =>
      rw [namesFrom, if_neg (by simp [isNamePart_of_isSeparator hp])]
      exact ih (by simpa using hbound)
  | @tool tool tools t ht _ ih =>
    cases bound with
    | zero => cases hbound
    | succ bound =>
      have hpast := isPast_brackets tool ht
      have htake : (tool.name ++ (tool.brackets ++ t)).takeWhile isNamePart = tool.name :=
        takeWhile_run tool.isNamePart_of_mem hpast
      have hdrop : (tool.name ++ (tool.brackets ++ t)).dropWhile isNamePart =
          tool.brackets ++ t := dropWhile_run tool.isNamePart_of_mem hpast
      have hpos : 0 < tool.name.length := List.length_pos_iff.mpr tool.name_ne_nil
      have hrest : namesFrom bound t = tools.map (·.name) := by
        apply ih
        rw [Tool.text, List.append_assoc, List.length_append, List.length_append] at hbound
        omega
      rw [Tool.text, List.append_assoc]
      obtain ⟨p, n, hname⟩ := List.exists_cons_of_ne_nil tool.name_ne_nil
      have hp : isNamePart p = true := tool.isNamePart_of_mem p (by simp [hname])
      calc namesFrom (bound + 1) (tool.name ++ (tool.brackets ++ t))
          = (tool.name ++ (tool.brackets ++ t)).takeWhile isNamePart ::
              namesFrom bound (afterArguments
                ((tool.name ++ (tool.brackets ++ t)).dropWhile isNamePart)) := by
            rw [hname, List.cons_append, namesFrom, if_pos hp]
        _ = tool.name :: namesFrom bound t := by
            rw [htake, hdrop, afterArguments_brackets tool ht]
        _ = (tool :: tools).map (·.name) := by rw [hrest, List.map_cons]

/-- The name of a tool in a list is found whatever blanks are around it. -/
theorem nameOf_spaced (tool : Tool) {a b : Text} (ha : a.IsBlank) (hb : b.IsBlank) :
    nameOf (a ++ (tool.text ++ b)) = tool.name := by
  have hblank {c : Text} (hc : c.IsBlank) : ∀ p ∈ c, (p != Point.scalar '(') = true := by
    intro p hp
    refine bne_iff_ne.mpr ?_
    rintro rfl
    exact absurd (hc _ hp) (by decide)
  have hname : ∀ p ∈ a ++ tool.name, (p != Point.scalar '(') = true :=
    List.forall_mem_append.mpr ⟨hblank ha, fun p hp =>
      bne_iff_ne.mpr (ne_bracket_of_isNamePart (tool.isNamePart_of_mem p hp))⟩
  -- Up to a bracket there are the name and blanks, with arguments and without.
  obtain ⟨c, hc, hcut⟩ : ∃ c, IsBlank c ∧
      (a ++ (tool.text ++ b)).takeWhile (· != Point.scalar '(') = a ++ (tool.name ++ c) := by
    unfold Tool.text Tool.brackets
    cases tool.arguments with
    | none =>
      refine ⟨b, hb, ?_⟩
      have hall : ∀ p ∈ a ++ tool.name ++ b, (p != Point.scalar '(') = true :=
        List.forall_mem_append.mpr ⟨hname, hblank hb⟩
      rw [List.append_nil, ← List.append_assoc]
      exact List.takeWhile_eq_self_iff.mpr hall
    | some args =>
      have hbracket : IsPast (· != Point.scalar '(')
          (.scalar '(' :: (args ++ [.scalar ')'] ++ b)) := isPast_cons.mpr (by simp)
      refine ⟨[], by simp [IsBlank], ?_⟩
      rw [List.append_nil, List.append_assoc tool.name, ← List.append_assoc a]
      exact takeWhile_run hname hbracket
  have hsolid : ∀ p ∈ tool.name, p.isBlank = false :=
    fun p hp => isBlank_of_isNamePart (tool.isNamePart_of_mem p hp)
  rw [nameOf, hcut, strip_append ha tool.name_ne_nil
    (fun p hp => hsolid p (List.mem_of_mem_head? hp))
    (fun p hp => hsolid p (List.mem_of_mem_getLast? hp)), hc.trimRight_eq, List.append_nil]

/-- The names of the tools in a list. -/
theorem Lists.names_eq {tools : List Tool} {vs : List Value} (h : Lists tools vs) :
    ∃ shown, (vs.filter (!·.isNull)).mapM Value.shown = .ok shown ∧
      (shown.map nameOf).filter (!·.isEmpty) = tools.map (·.name) := by
  induction h with
  | nil => exact ⟨[], rfl, rfl⟩
  | @null tools vs _ ih => simpa [Value.isNull] using ih
  | @tool tool tools a b vs ha hb _ ih =>
    obtain ⟨shown, hshown, hnames⟩ := ih
    refine ⟨(a ++ (tool.text ++ b)) :: shown, ?_, ?_⟩
    · have hfilter : (Value.text (a ++ (tool.text ++ b)) :: vs).filter (!·.isNull) =
          .text (a ++ (tool.text ++ b)) :: vs.filter (!·.isNull) := rfl
      rw [hfilter, List.mapM_cons, hshown]
      rfl
    · rw [List.map_cons, nameOf_spaced tool ha hb, List.map_cons, ← hnames]
      simp [tool.name_ne_nil]

/-- Both ways to write tools give their names in order. -/
theorem Writes.toolNames_eq {tools : List Tool} {v : Value} (h : Writes tools v) :
    toolNames v = .ok (tools.map (·.name)) := by
  cases h with
  | @joined t h =>
    have hnames : namesFrom (t.length + 1) t = tools.map (·.name) :=
      h.namesFrom_eq (Nat.lt_succ_self t.length)
    show Except.ok (namesFrom (t.length + 1) t) = _
    rw [hnames]
  | @listed vs h =>
    obtain ⟨shown, hshown, hnames⟩ := h.names_eq
    have hitems : (Value.list vs).items? = some vs := rfl
    rw [toolNames_of_items hitems, hshown, ← hnames]
    rfl

/-! ## The evidence of tools -/

/-- The rules restrict a tool. -/
def isRestricted (rules : RuleTables) (name : Text) : Bool := (rules.tools.get? name).isSome

/-- Evidence says that a tool needs the local environment, with the impact that the rules have for
it. -/
def RestrictsTool (rules : RuleTables) (file name : Text) (e : Evidence) : Prop :=
  ∃ r, rules.tools.get? name = some r ∧
    e = ⟨.frontmatter, file, none, ("allowed-tools: " : Text) ++ name,
      ("Skill requires \"" : Text) ++ name ++ "\" tool which needs local environment access",
      r.template.impact⟩

/-- The evidence of names is one piece for each that is restricted, in order. -/
theorem restrictsTool_filterMap (rules : RuleTables) (file : Text) (names : List Text) :
    List.Forall₂ (RestrictsTool rules file) (names.filter (isRestricted rules))
      (names.filterMap (toolEvidence? rules file)) := by
  induction names with
  | nil => exact .nil
  | cons name names ih =>
    -- There is evidence for a name exactly if the table has it, which is what the filter asks.
    cases hr : rules.tools.get? name with
    | none =>
      have hevidence : toolEvidence? rules file name = none := by simp [toolEvidence?, hr]
      rw [List.filterMap_cons_none hevidence, List.filter_cons_of_neg (by simp [isRestricted, hr])]
      exact ih
    | some r =>
      have hevidence : ∃ e, toolEvidence? rules file name = some e ∧
          RestrictsTool rules file name e := by
        refine ⟨_, ?_, r, hr, rfl⟩
        simp [toolEvidence?, hr]
      obtain ⟨e, he, hrestricts⟩ := hevidence
      rw [List.filterMap_cons_some he, List.filter_cons_of_pos (by simp [isRestricted, hr])]
      exact .cons hrestricts ih

/-- Of names without repetition those of a kind are the names of the kind without repetition. -/
theorem filter_eraseDups (f : Text → Bool) (names : List Text) :
    names.eraseDups.filter f = (names.filter f).eraseDups := by
  -- On the number of names, since erasing one leaves a shorter list.
  induction hn : names.length using Nat.strong_induction_on generalizing names with
  | _ n ih =>
    cases names with
    | nil => rfl
    | cons name names =>
      have hlength := List.length_filter_le (fun b => !b == name) names
      have hrest := ih _ (by simp only [List.length_cons] at hn; omega)
        (names.filter fun b => !b == name) rfl
      rw [List.eraseDups_cons]
      by_cases hname : f name = true
      · rw [List.filter_cons_of_pos hname, List.filter_cons_of_pos hname, List.eraseDups_cons,
          hrest, List.filter_filter, List.filter_filter]
        simp only [Bool.and_comm]
      · -- A name that is not of the kind is erased by the kind as well.
        have hsame : (names.filter fun b => !b == name).filter f = names.filter f := by
          rw [List.filter_filter]
          refine List.filter_congr fun b _ => ?_
          by_cases hb : b = name
          · simp [hb, hname]
          · simp [hb]
        rw [List.filter_cons_of_neg hname, List.filter_cons_of_neg hname, hrest, hsame]

end Declaration

open Declaration

/-- Tools mean the same in a text and in a list. Every value that stands for tools, a text that
joins them or a list of them, has the same evidence. It is one piece for each distinct name of a
tool that the rules restrict, in the order in which these names first occur, and nothing for other
names. The list of the tools as they are written stands for them, and so does every text that has
one separator or more between two of them. -/
theorem tool_lists_agree (rules : RuleTables) (file : Text) (tools : List Tool) :
    (∀ v, Writes tools v → ∀ w, Writes tools w →
      toolsEvidence rules file v = toolsEvidence rules file w) ∧
    (∀ v, Writes tools v → ∃ es, toolsEvidence rules file v = .ok es ∧
      List.Forall₂ (RestrictsTool rules file)
        ((tools.map (·.name)).filter (isRestricted rules)).eraseDups es) ∧
    Writes tools (.list (tools.map fun t => .text t.text)) ∧
    ∀ sep : Text, sep ≠ [] → (∀ p ∈ sep, isSeparator p = true) →
      Writes tools (.text (Text.join sep (tools.map Tool.text))) := by
  have hevidence (v : Value) (hv : Writes tools v) : toolsEvidence rules file v =
      .ok ((tools.map (·.name)).eraseDups.filterMap (toolEvidence? rules file)) := by
    unfold toolsEvidence
    rw [hv.toolNames_eq, ← distinct_eq_eraseDups]
    rfl
  refine ⟨fun v hv w hw => ?_, fun v hv => ⟨_, hevidence v hv, ?_⟩, .listed (lists_texts tools),
    fun sep hne hsep => .joined (joins_join hne hsep tools)⟩
  · rw [hevidence v hv, hevidence w hw]
  · rw [← filter_eraseDups]
    exact restrictsTool_filterMap rules file _

namespace Declaration

open Text

/-- A tool with arguments that hold a comma, a blank and a bracket. -/
def scopedShell : Tool where
  name := "Bash"
  arguments := some "git add:*, (x"
  name_ne_nil := by decide
  isNamePart_of_mem := by decide
  notMem_arguments := by decide

/-- A tool by its name. -/
def reading : Tool where
  name := "Read"
  arguments := none
  name_ne_nil := by decide
  isNamePart_of_mem := by decide
  notMem_arguments := by simp

/-- A tool with empty arguments. -/
def editing : Tool where
  name := "Edit"
  arguments := some []
  name_ne_nil := by decide
  isNamePart_of_mem := by decide
  notMem_arguments := by simp

/-- The tools in a text, with separators at both edges. -/
def sampleTools : Text :=
  .scalar ',' :: (scopedShell.text ++ .scalar ' ' :: .scalar ',' :: (reading.text ++
    .scalar '\t' :: (editing.text ++ .scalar ',' :: (scopedShell.text ++ .scalar ' ' :: []))))

/-- The tools in a list, with blanks around one of them and nothing in between. -/
def sampleElements : List Value :=
  [.text scopedShell.text, .null, .text ([.scalar ' '] ++ (reading.text ++ [.scalar '\n'])),
    .text editing.text, .text scopedShell.text]

/-- The sample text writes the sample tools. -/
theorem writes_sampleTools :
    Writes [scopedShell, reading, editing, scopedShell] (.text sampleTools) :=
  .joined (.separator (by decide) (.tool (by decide) (.separator (by decide)
    (.separator (by decide) (.tool (by decide) (.separator (by decide) (.tool (by decide)
      (.separator (by decide) (.tool (by decide) (.separator (by decide) .nil))))))))))

/-- The sample list writes the same tools. -/
theorem writes_sampleElements :
    Writes [scopedShell, reading, editing, scopedShell] (.list sampleElements) := by
  have hnone : IsBlank [] := by simp [IsBlank]
  have hbefore : IsBlank [.scalar ' '] := fun p hp => List.mem_singleton.mp hp ▸ by decide
  have hafter : IsBlank [.scalar '\n'] := fun p hp => List.mem_singleton.mp hp ▸ by decide
  have hlast : Lists [editing, scopedShell] [.text editing.text, .text scopedShell.text] :=
    lists_texts [editing, scopedShell]
  exact .listed (.tool hnone hnone (.null (.tool hbefore hafter hlast)))

end Declaration

/-- A text with tools and a list with them have the same evidence. -/
theorem tool_lists_agree_sample :
    toolsEvidence Bundled.tables "SKILL.md" (.text sampleTools) =
      toolsEvidence Bundled.tables "SKILL.md" (.list sampleElements) ∧
    ∃ es, toolsEvidence Bundled.tables "SKILL.md" (.text sampleTools) = .ok es ∧
      List.Forall₂ (RestrictsTool Bundled.tables "SKILL.md") [("Bash" : Text), "Edit"] es := by
  obtain ⟨hsame, hfound, -⟩ :=
    tool_lists_agree Bundled.tables "SKILL.md" [scopedShell, reading, editing, scopedShell]
  have hnames : (([scopedShell, reading, editing, scopedShell].map (·.name)).filter
      (isRestricted Bundled.tables)).eraseDups = [("Bash" : Text), "Edit"] := by decide +kernel
  exact ⟨hsame _ writes_sampleTools _ writes_sampleElements,
    hnames ▸ hfound _ writes_sampleTools⟩

end SurfaceAudit
