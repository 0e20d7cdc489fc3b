import KNames.Proofs.Settings.Reading
import KNames.Proofs.Storage.Disk
import KNames.Proofs.Text.Bytes
import KNames.Proofs.Toml.Statements
import KNames.Proofs.Toml.Strings
import KNames.Settings.File

set_option autoImplicit false

namespace KNames.Settings

open Decoding Record Outcome Storage Toml

variable {s : Settings} {State : Type} {system : FileSystem State} {state later : State}
  {path : String} {bound : Nat}

theorem isBare_tableKey : IsBare tableKey := ⟨by decide, by decide⟩

theorem isBare_importScopeKey : IsBare importScopeKey := ⟨by decide, by decide⟩

theorem isBare_labelSeparatorKey : IsBare labelSeparatorKey := ⟨by decide, by decide⟩

theorem isLineChar_of_mem_name {scope : ImportScope} : ∀ c ∈ scope.name.toList, IsLineChar c := by
  have hname : scope.name.toList.all (fun c => c != '"' && c != '\\' && c != '\n') = true := by
    cases scope <;> decide
  intro c hc
  have hchar := List.all_eq_true.mp hname c hc
  simp only [Bool.and_eq_true, bne_iff_ne] at hchar
  exact ⟨hchar.1.1, hchar.1.2, hchar.2⟩

theorem flatMap_escapedChar_name (scope : ImportScope) :
    scope.name.toList.flatMap escapedChar = scope.name.toList := by
  cases scope <;> rfl

theorem string?_name (scope : ImportScope) (rest : List Char) :
    string? ('"' :: (scope.name.toList ++ '"' :: rest)) = some (scope.name, rest) := by
  have hne : scope.name.toList ≠ [] := by
    cases scope <;> decide
  have hread := string?_escaped hne isLineChar_of_mem_name rest
  rwa [flatMap_escapedChar_name, String.ofList_toList] at hread

theorem exists_quote_separatorText (c : Char) :
    ∃ quote more, (quote = '"' ∨ quote = '\'') ∧ separatorText c = quote :: more := by
  unfold separatorText
  split_ifs
  · exact ⟨'\'', _, .inr rfl, rfl⟩
  · exact ⟨'"', _, .inl rfl, rfl⟩
  · exact ⟨'"', _, .inl rfl, rfl⟩

def separatorLine (c : Char) : List Char :=
  labelSeparatorKey.toList ++ ' ' :: '=' :: ' ' :: (separatorText c ++ ['\n'])

def scopeLine (scope : ImportScope) (rest : List Char) : List Char :=
  importScopeKey.toList ++ ' ' :: '=' :: ' ' :: '"' :: (scope.name.toList ++ '"' :: '\n' :: rest)

theorem toList_render (s : Settings) : s.render.toList =
    '[' :: (tableKey.toList ++ ']' :: '\n' ::
      scopeLine s.importScope (separatorLine s.labelSeparator)) := by
  simp [render, scopeLine, separatorLine]

theorem statement?_scopeLine (scope : ImportScope) (rest : List Char) :
    statement? (scopeLine scope rest) =
      some (.assign [] importScopeKey (.string scope.name), rest) :=
  statement?_string isBare_importScopeKey (.inl rfl) (string?_name scope ('\n' :: rest))

theorem statement?_separatorLine (c : Char) : statement? (separatorLine c) =
    some (.assign [] labelSeparatorKey (.string (String.ofList [c])), []) := by
  obtain ⟨quote, more, hquote, htext⟩ := exists_quote_separatorText c
  have hread := string?_separatorText c []
  unfold separatorLine
  rw [htext, List.cons_append] at hread ⊢
  exact statement?_string isBare_labelSeparatorKey hquote hread

def statements (s : Settings) : List Statement :=
  [.header [] tableKey, .assign [] importScopeKey (.string s.importScope.name),
    .assign [] labelSeparatorKey (.string (String.ofList [s.labelSeparator]))]

theorem statements?_render (s : Settings) (bound : Nat) :
    statements? (bound + 4) s.render.toList = some s.statements := by
  rw [toList_render,
    statements?_cons rfl rfl (statement?_header isBare_tableKey _),
    statements?_cons rfl rfl (statement?_scopeLine s.importScope _),
    statements?_cons rfl rfl (statement?_separatorLine s.labelSeparator)]
  rfl

def document (s : Settings) : Entries :=
  [(tableKey, .table .defined [(importScopeKey, .string s.importScope.name),
    (labelSeparatorKey, .string (String.ofList [s.labelSeparator]))])]

theorem assemble_statements (s : Settings) : assemble s.statements = some s.document := rfl

theorem parse?_render (s : Settings) : parse? s.render = some s.document := by
  have hmark : dropMark s.render.toList = s.render.toList := by
    rw [toList_render]
    rfl
  -- Three statements and the end of the text take four steps of the bound.
  obtain ⟨bound, hbound⟩ : ∃ bound, s.render.toList.length + 1 = bound + 4 := by
    refine ⟨s.render.toList.length - 3, ?_⟩
    rw [toList_render, List.length_cons, List.length_append, List.length_cons, List.length_cons]
    omega
  have hread := statements?_render s bound
  rw [parse?, hmark, hbound, hread]
  exact assemble_statements s

theorem ofEntries_document (s : Settings) : ofEntries s.document = .ok s := by
  have hseparator : IsSeparator (.string (String.ofList [s.labelSeparator])) s.labelSeparator := by
    rw [IsSeparator, String.singleton_eq_ofList]
  have hmembers : members? s.document = some [(importScopeKey, .string s.importScope.name),
      (labelSeparatorKey, .string (String.ofList [s.labelSeparator]))] := rfl
  exact (ofEntries_eq_ok_iff hmembers).mpr ⟨NamesScope.name s.importScope, hseparator⟩

theorem parse_render (s : Settings) : parse s.render = .ok s := by
  rw [parse, parse?_render]
  exact mapError_eq_ok_iff.mpr (ofEntries_document s)

theorem load_of_save (hkeeps : system.Keeps state path)
    (h : s.save system state path = .ok later) : load system later path = .ok s := by
  have hread : system.read later path = .ok s.render.toUTF8 :=
    hkeeps s.render.toUTF8 later (mapError_eq_ok_iff.mp h)
  have htext : readText system later path = .ok s.render := by
    refine bind_eq_ok_iff.mpr ⟨s.render.toUTF8, mapError_eq_ok_iff.mpr hread, ?_⟩
    rw [String.toUTF8_eq_toByteArray, Text.fromUTF8?_toByteArray]
  rw [load, htext]
  exact mapError_eq_ok_iff.mpr (parse_render s)

/-- Settings come back from their document, no two are rendered alike, and in every file system that
keeps what is written under a path they come back from the file that they were saved to. -/
theorem parse_render_load_save (s : Settings) :
    parse s.render = .ok s ∧
      (∀ other : Settings, other.render = s.render → other = s) ∧
      ∀ {State : Type} (system : FileSystem State) (state later : State) (path : String),
        system.Keeps state path → s.save system state path = .ok later →
          load system later path = .ok s := by
  refine ⟨parse_render s, ?_, ?_⟩
  · intro other h
    have hother := parse_render other
    rw [h, parse_render s] at hother
    exact (Except.ok.inj hother).symm
  · intro State system state later path hkeeps h
    exact load_of_save hkeeps h

/-- The separator is a quote here, and the disk has no file yet. -/
theorem parse_render_load_save_fresh :
    Disk.system.Keeps Disk.empty "ksem.toml" ∧
      ∃ later, save { labelSeparator := '"' } Disk.system Disk.empty "ksem.toml" = .ok later ∧
        load Disk.system later "ksem.toml" = .ok { labelSeparator := '"' } := by
  have hkeeps := Disk.empty.keeps "ksem.toml"
  obtain ⟨_, _, hload⟩ := parse_render_load_save { labelSeparator := '"' }
  exact ⟨hkeeps, _, rfl, hload Disk.system Disk.empty _ "ksem.toml" hkeeps rfl⟩

end KNames.Settings
