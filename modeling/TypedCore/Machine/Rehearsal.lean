import TypedCore.Machine

/-!
# Rehearsals

A host outside of the program cannot be asked in the middle of a step. So a
step is rehearsed first, with a host that refuses every request and
remembers it. Everything up to the request is final, above all the trace
line; the request is carried out, and the step is taken again with the
answer at hand. A step without a request needs no second take.
-/

namespace TypedCore

/-- A host that refuses what it is asked, and remembers it. -/
def Host.noting : Host (Option HostCall) := ⟨fun call _ => (.error 0, some call)⟩

/-- A host that has the answer to one request, and refuses any other. -/
def Host.prepared (call : HostCall) (answer : Except Int call.Answer) : Host Unit :=
  ⟨fun c h => (if same : call = c then same ▸ answer else .error 0, h)⟩

namespace Machine

/-- A step up to the request to the host, if it has one. -/
def rehearse (m : Machine) : StepOutcome (Option HostCall) := m.step .noting none

/-- The machine with nothing written to the trace and nothing transmitted. -/
def drained (m : Machine) : Machine :=
  { m with
    trace := m.trace.map fun _ => []
    platform := { m.platform with bus := { m.platform.bus with sent := #[] } } }

/-- The lines in the trace, in the order they were written. -/
def traceLines (m : Machine) : List String := (m.trace.getD []).reverse

/-- The bytes transmitted by the consoles. -/
def sent (m : Machine) : List Byte := m.platform.bus.sent.toList

end Machine

end TypedCore
