import TypedCore.Image
import TypedCore.Machine

/-!
# Loading a program

A program is placed in memory, and the start state is set: the program
counter of the current mode at the entry point, and the stack pointer where
the configuration wants it. Nothing else changes; if the program does not
fit, not even that.
-/

namespace TypedCore.Machine

def stackReg : Nat := 13

def load (m : Machine) (image : Image) (args : List (List Byte)) (sp : Word) :
    Except HostFault Unit × Machine :=
  match image.place args m.platform.bus with
  | (.error fault, bus) => (.error (.image fault), { m with platform := { m.platform with bus } })
  | (.ok (), bus) =>
    let m := { m with platform := { m.platform with bus } }
    match (m.state.setPc image.entry).writeReg stackReg (.int sp) with
    | .ok s => (.ok (), { m with state := s })
    | .error e => (.error e, m)

end TypedCore.Machine
