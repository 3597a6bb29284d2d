import Xlsx.Error
import Xlsx.Markup.Entity

/-! # Parts of a workbook

The parts that are read when a workbook is opened are small and read in full: one event after the
other, until the part ends or something in it cannot be read. -/

namespace Xlsx

namespace Markup

/-- Reading a part in full. A fault behind the last event counts once all events are read. -/
def Stream.read {σ : Type} (step : σ → Event → Except PartFault σ) (start : σ) (s : Stream) :
    Except PartFault σ := do
  let result ← s.events.foldlM step start
  match s.fault? with
  | some fault => throw (.markup fault)
  | none => return result

/-- An attribute with its value in which references are replaced. -/
def Attribute.expand? (a : Attribute) : Except PartFault (Attribute × String) :=
  (a.expanded.mapError .attributeText).map fun value => (a, value)

/-- The attributes of a tag with their values, or the first fault among them. -/
def Tag.expandedAttributes (tag : Tag) : Except PartFault (List (Attribute × String)) :=
  tag.attributes.mapM fun a => do (← a.mapError .attribute).expand?

end Markup

end Xlsx
