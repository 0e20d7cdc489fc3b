import KNames.Proofs.Settings.Fields
import KNames.Settings.Document
import Mathlib.Data.List.Forall2
import Mathlib.Data.Option.Defs

set_option autoImplicit false

/-!
# Settings are read from two entries

Of a document with a table under the key, or with none, only two entries of this table matter. A
field is what its entry says, or its default without an entry, and the settings are refused only if
an entry says nothing. How a table was written, in which order its entries stand, and what else
there is in the document makes no difference.
-/
namespace KNames

namespace Toml.Item

variable {a b : Item} {list : List Item} {form : TableForm} {entries : Entries}

def items? : Item → Option (List Item)
  | array items => some items
  | tables elements => some (elements.map (table .defined))
  | _ => none

/-- The same value, without regard to how it was written and to the order of keys. -/
inductive Alike : Item → Item → Prop
  | same (item : Item) : Alike item item
  | array {a b : Item} {items others : List Item} (ha : a.items? = some items)
      (hb : b.items? = some others) (values : List.Forall₂ Alike items others) : Alike a b
  | table {form other : TableForm} {entries middle others : Entries}
      (order : entries.Perm middle) (keys : middle.map (·.1) = others.map (·.1))
      (values : List.Forall₂ Alike (middle.map (·.2)) (others.map (·.2))) :
      Alike (.table form entries) (.table other others)

def IsEmpty (item : Item) : Prop := (∃ form, item = .table form []) ∨ item.items? = some []

theorem isEmpty_table : (table form entries).IsEmpty ↔ entries = [] := by
  simp [IsEmpty, items?]

theorem isEmpty_of_items? (h : a.items? = some list) : a.IsEmpty ↔ list = [] := by
  rw [IsEmpty, h, Option.some_inj, or_iff_right]
  rintro ⟨form, rfl⟩
  cases h

theorem Alike.isEmpty_iff (h : Alike a b) : a.IsEmpty ↔ b.IsEmpty := by
  cases h with
  | same => rfl
  | array ha hb values =>
    rw [isEmpty_of_items? ha, isEmpty_of_items? hb, ← List.length_eq_zero_iff, values.length_eq,
      List.length_eq_zero_iff]
  | table order keys values =>
    have hlength := congrArg List.length keys
    rw [List.length_map, List.length_map] at hlength
    rw [isEmpty_table, isEmpty_table, ← List.length_eq_zero_iff, order.length_eq, hlength,
      List.length_eq_zero_iff]

end Toml.Item

theorem ImportScope.ofName?_eq_some_iff {name : String} {scope : ImportScope} :
    ofName? name = some scope ↔ name = scope.name := by
  constructor
  · intro h
    unfold ofName? at h
    split_ifs at h with hfile hmodule
    · cases h
      exact hfile
    · cases h
      exact hmodule
  · rintro rfl
    exact ofName?_name scope

namespace Settings

open Decoding Outcome Record Toml

variable {item a b : Item} {scope : ImportScope} {c : Char} {s : Settings} {text : String}
  {document members : Entries}

/-- A policy is given by its name, or by a table with its name as the only key and nothing in the
value. -/
inductive NamesScope : Item → ImportScope → Prop
  | name (scope : ImportScope) : NamesScope (.string scope.name) scope
  | key {form : TableForm} {payload : Item} (scope : ImportScope) (h : payload.IsEmpty) :
      NamesScope (.table form [(scope.name, payload)]) scope

def IsSeparator (item : Item) (c : Char) : Prop := item = .string (String.singleton c)

theorem readName_eq_ok_iff {name : String} : readName name = .ok scope ↔ name = scope.name := by
  rw [← ImportScope.ofName?_eq_some_iff, readName]
  cases ImportScope.ofName? name <;> simp

theorem checkPayload_eq_ok_iff : checkPayload item = .ok () ↔ item.IsEmpty := by
  cases item with
  | table form entries =>
    rw [Item.isEmpty_table]
    cases entries <;> simp [checkPayload]
  | array items =>
    have hitems : (Item.array items).items? = some items := rfl
    rw [Item.isEmpty_of_items? hitems]
    cases items <;> simp [checkPayload]
  | tables elements =>
    have hitems : (Item.tables elements).items? = some (elements.map (.table .defined)) := rfl
    rw [Item.isEmpty_of_items? hitems, List.map_eq_nil_iff]
    cases elements <;> simp [checkPayload]
  | _ => simp [checkPayload, Item.IsEmpty, Item.items?]

theorem namesScope_table_iff {form : TableForm} {entries : Entries} :
    NamesScope (.table form entries) scope ↔
      ∃ payload, entries = [(scope.name, payload)] ∧ payload.IsEmpty := by
  constructor
  · rintro ⟨⟩
    exact ⟨_, rfl, by assumption⟩
  · rintro ⟨payload, rfl, h⟩
    exact .key scope h

theorem readScope_eq_ok_iff : readScope item = .ok scope ↔ NamesScope item scope := by
  cases item with
  | string name =>
    refine readName_eq_ok_iff.trans ⟨?_, ?_⟩
    · rintro rfl
      exact .name scope
    · rintro ⟨⟩
      rfl
  | table form entries =>
    rw [namesScope_table_iff]
    match entries with
    | [] => simp [readScope]
    | [(name, payload)] =>
      refine bind_eq_ok_iff.trans ⟨?_, ?_⟩
      · rintro ⟨found, hname, h⟩
        obtain ⟨_, hpayload, hfound⟩ := bind_eq_ok_iff.mp h
        cases hfound
        cases readName_eq_ok_iff.mp hname
        exact ⟨payload, rfl, checkPayload_eq_ok_iff.mp hpayload⟩
      · rintro ⟨_, heq, hpayload⟩
        cases heq
        exact ⟨scope, readName_eq_ok_iff.mpr rfl,
          bind_eq_ok_iff.mpr ⟨(), checkPayload_eq_ok_iff.mpr hpayload, rfl⟩⟩
    | _ :: _ :: _ => simp [readScope]
  | _ =>
    constructor
    · rintro ⟨⟩
    · rintro ⟨⟩

theorem readChar_eq_ok_iff : readChar text = .ok c ↔ text = String.singleton c := by
  constructor
  · intro h
    unfold readChar at h
    split at h
    · rename_i found hlist
      cases h
      rw [← String.toList_inj, hlist, String.toList_singleton]
    · cases h
  · rintro rfl
    rw [String.singleton_eq_ofList]
    exact readChar_ofList c

theorem readSeparator_eq_ok_iff : readSeparator item = .ok c ↔ IsSeparator item c := by
  cases item with
  | string text =>
    refine mapError_eq_ok_iff.trans ?_
    rw [readChar_eq_ok_iff, IsSeparator, Item.string.injEq]
  | _ =>
    constructor
    · rintro ⟨⟩
    · rintro ⟨⟩

theorem not_namesScope_of_items? {list : List Item} (h : item.items? = some list) :
    ¬NamesScope item scope := by
  rintro ⟨⟩ <;> cases h

theorem Alike.namesScope_iff (h : Item.Alike a b) : NamesScope a scope ↔ NamesScope b scope := by
  cases h with
  | same => rfl
  | array ha hb _ =>
    exact iff_of_false (not_namesScope_of_items? ha) (not_namesScope_of_items? hb)
  | @table _ _ entries middle others order keys values =>
    have hothers : others.length = middle.length := by simpa using (congrArg List.length keys).symm
    rw [namesScope_table_iff, namesScope_table_iff]
    -- Either both tables have one key, and then the same one, or neither has.
    by_cases hone : ∃ entry, middle = [entry]
    · obtain ⟨⟨name, payload⟩, rfl⟩ := hone
      obtain ⟨⟨other, value⟩, rfl⟩ := List.length_eq_one_iff.mp hothers
      obtain rfl : name = other := List.singleton_inj.mp keys
      obtain ⟨hvalue, -⟩ := List.forall₂_cons.mp values
      rw [List.perm_singleton.mp order]
      simp [hvalue.isEmpty_iff]
    · refine iff_of_false ?_ ?_
      · rintro ⟨payload, rfl, -⟩
        exact hone ⟨_, (List.singleton_perm.mp order).symm⟩
      · rintro ⟨payload, rfl, -⟩
        exact hone (List.length_eq_one_iff.mp hothers.symm)

theorem Alike.isSeparator_iff (h : Item.Alike a b) : IsSeparator a c ↔ IsSeparator b c := by
  unfold IsSeparator
  cases h with
  | same => rfl
  | array ha hb _ =>
    refine iff_of_false ?_ ?_
    · rintro rfl
      cases ha
    · rintro rfl
      cases hb
  | table => exact iff_of_false Item.noConfusion Item.noConfusion

def members? (document : Entries) : Option Entries :=
  match document.lookup tableKey with
  | none => some []
  | some (.table _ members) => some members
  | some _ => none

/-- What an entry says, or the default where there is none. -/
def Given {α : Type} (valid : Item → α → Prop) (default : α) : Option Item → α → Prop
  | none, x => x = default
  | some item, x => valid item x

theorem Given.congr {α : Type} {valid : Item → α → Prop} {default x : α} {entry other : Option Item}
    (halike : Option.Rel Item.Alike entry other)
    (hvalid : ∀ {a b}, Item.Alike a b → (valid a x ↔ valid b x)) :
    Given valid default entry x ↔ Given valid default other x := by
  cases halike with
  | some h => exact hvalid h
  | none => rfl

theorem Given.exists_of_some {α : Type} {valid : Item → α → Prop} {default x : α}
    {entry : Option Item} (h : Given valid default entry x) (item : Item)
    (hitem : entry = some item) : ∃ x, valid item x := by
  rw [hitem] at h
  exact ⟨x, h⟩

theorem exists_given {α : Type} {valid : Item → α → Prop} (default : α) {entry : Option Item}
    (h : ∀ item, entry = some item → ∃ x, valid item x) : ∃ x, Given valid default entry x := by
  cases entry with
  | none => exact ⟨default, rfl⟩
  | some item => exact h item rfl

theorem holds_iff_given {α ε : Type} {read : Item → Except ε α} {valid : Item → α → Prop}
    {name : String} {default x : α} (hread : ∀ {item}, read item = .ok x ↔ valid item x) :
    Holds members name read default x ↔ Given valid default (members.lookup name) x := by
  unfold Holds
  cases members.lookup name with
  | none => simp [Given, eq_comm]
  | some item => simpa [Given] using hread

def Reads (members : Entries) (s : Settings) : Prop :=
  Given NamesScope ({} : Settings).importScope (members.lookup importScopeKey) s.importScope ∧
    Given IsSeparator ({} : Settings).labelSeparator (members.lookup labelSeparatorKey)
      s.labelSeparator

theorem readMembers_eq_ok_iff_reads :
    itemFields.readMembers members = .ok s ↔ Reads members s := by
  rw [readMembers_eq_ok_iff, itemFields, fields_gives_iff, holds_iff_given readScope_eq_ok_iff,
    holds_iff_given readSeparator_eq_ok_iff, Reads]

theorem ofEntries_eq_ok_iff (h : members? document = some members) :
    ofEntries document = .ok s ↔ Reads members s := by
  rw [← readMembers_eq_ok_iff_reads]
  unfold members? at h
  unfold ofEntries
  split at h
  · rename_i hnone
    cases h
    rw [hnone]
    rfl
  · rename_i htable
    cases h
    rw [htable]
    rfl
  · cases h

theorem parse_eq_ok_iff (h : parse? text = some document)
    (hmembers : members? document = some members) : parse text = .ok s ↔ Reads members s := by
  rw [parse, h]
  exact mapError_eq_ok_iff.trans (ofEntries_eq_ok_iff hmembers)

/-- Settings are read from the two entries, one for each field, whatever else the table and the
document hold. -/
theorem parse_reads (h : parse? text = some document)
    (hmembers : members? document = some members) :
    ((∃ s, parse text = .ok s) ↔
      (∀ item, members.lookup importScopeKey = some item → ∃ scope, NamesScope item scope) ∧
        ∀ item, members.lookup labelSeparatorKey = some item → ∃ c, IsSeparator item c) ∧
    (∀ s, parse text = .ok s ↔ Reads members s) ∧
    ∀ other document' members', parse? other = some document' →
      members? document' = some members' →
      Option.Rel Item.Alike (members.lookup importScopeKey) (members'.lookup importScopeKey) →
      Option.Rel Item.Alike (members.lookup labelSeparatorKey)
        (members'.lookup labelSeparatorKey) →
      ∀ s, parse text = .ok s ↔ parse other = .ok s := by
  have hreads := fun s => parse_eq_ok_iff (s := s) h hmembers
  refine ⟨?_, hreads, ?_⟩
  · rw [exists_congr hreads]
    constructor
    · rintro ⟨s, hscope, hseparator⟩
      exact ⟨hscope.exists_of_some, hseparator.exists_of_some⟩
    · rintro ⟨hscope, hseparator⟩
      obtain ⟨scope, hscope⟩ := exists_given _ hscope
      obtain ⟨c, hseparator⟩ := exists_given _ hseparator
      exact ⟨⟨scope, c⟩, hscope, hseparator⟩
  · intro other document' members' hother hmembers' hscope hseparator s
    rw [hreads, parse_eq_ok_iff hother hmembers', Reads, Reads,
      Given.congr hscope Alike.namesScope_iff, Given.congr hseparator Alike.isSeparator_iff]

def widerEntry (form : TableForm) : String × Item :=
  (importScopeKey, .table form [(ImportScope.moduleWhenRequiredBy.name, .array [])])

def dotted : String :=
  "resolve.import-scope.module-when-required-by = []\nname = 1\n[resolve.unknown]\nx = 2\n"

def dottedMembers : Entries :=
  [widerEntry .dotted, ("unknown", .table .defined [("x", .integer 2)])]

def inlined : String :=
  "[package]\n[resolve]\nother = 1\nimport-scope = \x7bmodule-when-required-by=[]\x7d\n"

def inlinedMembers : Entries := [("other", .integer 1), widerEntry .inline]

theorem parse_reads_dotted :
    (parse? dotted = some [(tableKey, .table .dotted dottedMembers), ("name", .integer 1)] ∧
      members? [(tableKey, .table .dotted dottedMembers), ("name", .integer 1)] =
        some dottedMembers) ∧
    (parse? inlined =
        some [("package", .table .defined []), (tableKey, .table .defined inlinedMembers)] ∧
      members? [("package", .table .defined []), (tableKey, .table .defined inlinedMembers)] =
        some inlinedMembers) ∧
    (Option.Rel Item.Alike (dottedMembers.lookup importScopeKey)
        (inlinedMembers.lookup importScopeKey) ∧
      Option.Rel Item.Alike (dottedMembers.lookup labelSeparatorKey)
        (inlinedMembers.lookup labelSeparatorKey)) ∧
    parse dotted = .ok { importScope := .moduleWhenRequiredBy } ∧
    parse inlined = .ok { importScope := .moduleWhenRequiredBy } := by
  have hdotted : parse? dotted =
      some [(tableKey, .table .dotted dottedMembers), ("name", .integer 1)] := by rfl
  have hinlined : parse? inlined =
      some [("package", .table .defined []), (tableKey, .table .defined inlinedMembers)] := by rfl
  have hscope : Option.Rel Item.Alike (dottedMembers.lookup importScopeKey)
      (inlinedMembers.lookup importScopeKey) :=
    .some (.table (List.Perm.refl _) rfl (.cons (.same _) .nil))
  have hseparator : Option.Rel Item.Alike (dottedMembers.lookup labelSeparatorKey)
      (inlinedMembers.lookup labelSeparatorKey) := .none
  obtain ⟨-, hreads, hagree⟩ := parse_reads hdotted rfl
  have hpolicy : NamesScope (widerEntry .dotted).2 .moduleWhenRequiredBy :=
    .key .moduleWhenRequiredBy (.inr rfl)
  have hread : parse dotted = .ok { importScope := .moduleWhenRequiredBy } :=
    (hreads _).mpr ⟨hpolicy, rfl⟩
  exact ⟨⟨hdotted, rfl⟩, ⟨hinlined, rfl⟩, ⟨hscope, hseparator⟩, hread,
    (hagree _ _ _ hinlined rfl hscope hseparator _).mp hread⟩

end Settings

end KNames
