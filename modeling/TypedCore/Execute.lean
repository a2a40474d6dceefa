import TypedCore.Alu
import TypedCore.Effects

/-!
# Executing an instruction

`Insn.execute` maps an instruction to its effects in a given state. The
state is only read. Memory is accessed at once, at most once, and before
anything else is decided; a faulting access gives a cause and no other
effect. The few instructions that are not built are faults of the
simulator.
-/

namespace TypedCore

/-! ## Memory operands -/

def MemRef.resolve (mem : MemRef) (regs : RegFile) : Except HostFault Word :=
  match mem.base, mem.offset with
  | none, none => .error .noMemoryOperand
  | base, offset =>
    .ok ((base.map fun r => (regs.read r).value).getD 0 + offset.getD 0)

/-- The low part of a word that a store of a given width writes. -/
def Width.truncate (w : Width) (v : Word) : Word := BitVec.ofNat 32 (v.toNat % (1 <<< w.bits))

/-- The word that a load of a given width puts into a register. -/
def Width.extend (w : Width) (signed : Bool) (v : Word) : Word :=
  match w, signed with
  | .byte, true => v.signedByte
  | .half, true => v.signedHalf
  | _, _ => v

/-- Loads, and goes on with the loaded word. -/
def Platform.loadThen (p : Platform) (mode : Mode) (addr : Word) (width : Width)
    (use : Word → Effects) : Effects × Platform :=
  match p.read mode addr width with
  | (.ok value, p) => ({ use value with record := some ⟨addr, width, false, value⟩ }, p)
  | (.error fault, p) => (.fault fault, p)

def Platform.storeLow (p : Platform) (mode : Mode) (addr : Word) (width : Width)
    (value : Word) : Effects × Platform :=
  let value := width.truncate value
  match p.write mode addr width value with
  | (.ok (), p) => ({ record := some ⟨addr, width, true, value⟩ }, p)
  | (.error fault, p) => (.fault fault, p)

/-! ## Register types in bulk -/

/-- Sets the types of half the registers from the nibbles of a word. -/
def loadTypes (regs : RegFile) (half : RegHalf) (types : Word) : Effects :=
  { writes := (List.range half.size).map fun i =>
      (half.first + i, (regs.read (half.first + i)).withType (nibbleType types i)) }

/-- The types of half the registers, a nibble each. -/
def packTypes (regs : RegFile) (half : RegHalf) : Word :=
  BitVec.ofNat 32 (packLanes 4 (half.regs.map fun r => (regs.read r).type.code.toNat))

/-! ## Comparisons -/

def Comparison.operands (cmp : Comparison) (regs : RegFile) : Word × Word :=
  ((regs.read cmp.left).value, (cmp.right.map fun r => (regs.read r).value).getD 0)

/-- Whether a comparison holds in some lane, or in every lane. -/
def Comparison.holds (cmp : Comparison) (allLanes : Bool) (regs : RegFile) : Except Cause Bool :=
  let (left, right) := cmp.operands regs
  Lane.holds (regs.read cmp.typedBy).type cmp.cond cmp.signed allLanes left right

def Comparison.mask (cmp : Comparison) (regs : RegFile) : Except Cause TypedWord :=
  let (left, right) := cmp.operands regs
  Lane.mask (regs.read cmp.typedBy).type cmp.cond cmp.signed left right

/-! ## Instructions -/

/-- A binary operation. An immediate takes the type of the register beside it; a
short one cannot be a floating-point number. -/
def executeBinary (op : BinaryOp) (rd : Nat) (lhs : Operand) (rhs : Nat) (regs : RegFile) :
    Effects :=
  let b := regs.read rhs
  match lhs with
  | .reg ra => .ofResult rd (Alu.binaryChecked op (regs.read ra) b)
  | .imm value short =>
    if short && b.type.isFloat then .raise .type
    else .ofResult rd (Alu.binaryChecked op ⟨value, b.type⟩ b)

def executeMemory (op : MemOp) (reg : Nat) (mem : MemRef) (s : State) (p : Platform) :
    Except HostFault (Effects × Platform) := do
  let addr ← mem.resolve s.regs
  let r := s.regs.read reg
  match op with
  | .load width signed =>
    return p.loadThen s.mode addr width fun v => .write reg ⟨width.extend signed v, r.type⟩
  | .loadLinked => return p.loadThen s.mode addr .word fun v => .write reg ⟨v, r.type⟩
  | .store width => return p.storeLow s.mode addr width r.value
  | .storeConditional => return p.storeLow s.mode addr .word r.value

/-- The effects of an instruction in a state, and the platform after its memory
access. -/
def Insn.execute (insn : Insn) (s : State) (p : Platform) :
    Except HostFault (Effects × Platform) :=
  let regs := s.regs
  let pc := s.pc.even
  match insn with
  | unknown => .ok (.raise .unknownInstruction, p)
  | interrupt cause => .ok (.raise cause, p)
  | enterTask =>
    .ok (match s.mode with
      | .scheduler => { nextMode := some .task }
      | .task => {}, p)
  | waitForInterrupt | fence _ | invalidate _ => .ok ({}, p)
  | jumpReg target rd => .ok (.jump target (regs.read rd).value, p)
  | jumpImm target addr _ => .ok (.jump target addr, p)
  | readPc rd source =>
    .ok (.write rd (.int (match source with
      | .active => pc
      | .task => s.tpc)), p)
  | loadImm rd value _ => .ok (.write rd ⟨value, (regs.read rd).type⟩, p)
  | tinyImm rd value => .ok (.write rd ⟨BitVec.ofInt 32 value, (regs.read rd).type⟩, p)
  | link rd offset => .ok (.write rd (.int (pc + offset)), p)
  | unary op rd ra => .ok (.ofResult rd (Alu.unary op (regs.read ra)), p)
  | setTypeReg rd ra =>
    .ok (.write rd ((regs.read rd).withType (.ofWord (regs.read ra).value)), p)
  | getType rd ra => .ok (.write rd (.int ((regs.read ra).type.code.setWidth 32)), p)
  | setTypeImm rd type => .ok (.write rd ((regs.read rd).withType type), p)
  | binary op rd lhs rhs => .ok (executeBinary op rd lhs rhs regs, p)
  | andNot rd ra rb => .ok (.write rd (Alu.andNot (regs.read ra) (regs.read rb)), p)
  | tinyAdd rd rb value =>
    let b := regs.read rb
    .ok (.ofResult rd (Alu.binary .add b ⟨BitVec.ofInt 32 value, b.type⟩), p)
  | loadTypes half types => .ok (TypedCore.loadTypes regs half types, p)
  | swizzle rd ra pattern =>
    let a := regs.read ra
    .ok (.write rd ⟨TypedCore.swizzle a.value pattern, a.type⟩, p)
  | memory op reg mem => executeMemory op reg mem s p
  | jumpMem target mem => do
    return p.loadThen s.mode (← mem.resolve regs) .word fun v => .jump target v
  | loadTypesMem half mem => do
    return p.loadThen s.mode (← mem.resolve regs) .word fun v => TypedCore.loadTypes regs half v
  | storeTypesMem half mem => do
    return p.storeLow s.mode (← mem.resolve regs) .word (packTypes regs half)
  | branch cmp allLanes offset =>
    .ok (match cmp.holds allLanes regs with
      | .ok true => .jump .active (pc.displace offset)
      | .ok false => {}
      | .error cause => .raise cause, p)
  | bitBranch reg bit set offset =>
    .ok (if (regs.read reg).value.getLsbD bit = set then .jump .active (pc.displace offset)
      else {}, p)
  | fullMul rd ra rb shift signed =>
    .ok (.ofResult rd (Lane.fullMul (regs.read ra) (regs.read rb) shift signed), p)
  | laneCompare rd cmp => .ok (.ofResult rd (cmp.mask regs), p)
  | interpolate .. => .error (.unimplemented .interpolation)
  | csrRead rd addr => .ok ({ csr := some (.read rd addr) }, p)
  | csrWrite rd addr => .ok ({ csr := some (.write addr (regs.read rd).value) }, p)

end TypedCore
