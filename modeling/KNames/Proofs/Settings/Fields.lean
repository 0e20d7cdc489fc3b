import KNames.Proofs.Decoding.Record
import KNames.Settings.Fields

set_option autoImplicit false

namespace KNames.Settings

open Decoding Record

variable {V ε α : Type} {members : List (String × V)}

def Holds (members : List (String × V)) (name : String) (read : V → Except ε α) (default x : α) :
    Prop :=
  (∃ value, members.lookup name = some value ∧ read value = .ok x) ∨
    (members.lookup name = none ∧ default = x)

theorem defaulted_gives_iff {name : String} {read : V → Except ε α} {default x : α} :
    (defaulted name read default).Gives members x ↔ Holds members name read default x := by
  unfold defaulted Holds
  rw [field_gives_iff, Except.ok.injEq]

theorem fields_gives_iff {scope : V → Except ε ImportScope} {separator : V → Except ε Char}
    {s : Settings} : (fields scope separator).Gives members s ↔
      Holds members importScopeKey scope ({} : Settings).importScope s.importScope ∧
        Holds members labelSeparatorKey separator ({} : Settings).labelSeparator
          s.labelSeparator := by
  unfold fields
  rw [map_gives_iff]
  constructor
  · rintro ⟨⟨i, c⟩, hboth, rfl⟩
    obtain ⟨hi, hc⟩ := both_gives_iff.mp hboth
    exact ⟨defaulted_gives_iff.mp hi, defaulted_gives_iff.mp hc⟩
  · rintro ⟨hi, hc⟩
    have hboth := both_gives_iff.mpr ⟨defaulted_gives_iff.mpr hi, defaulted_gives_iff.mpr hc⟩
    exact ⟨(s.importScope, s.labelSeparator), hboth, rfl⟩

end KNames.Settings
