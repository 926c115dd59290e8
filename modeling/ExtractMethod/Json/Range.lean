import ExtractMethod.Json.Value
import ExtractMethod.Text.Range

namespace ExtractMethod.Text.Range

open Json (Value)

def encode (r : Range) : Value := .nats [r.start, r.stop]

def encode? : Option Range → Value
  | some r => r.encode
  | none => .null

/-- Two offsets in order. -/
def decode? (v : Value) : Option Range := do
  match ← v.items? with
  | [start, stop] => between? (← start.word?) (← stop.word?)
  | _ => none

end ExtractMethod.Text.Range
