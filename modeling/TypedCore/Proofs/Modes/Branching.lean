import TypedCore.Proofs.Execution.StoreLoad
import TypedCore.Proofs.Lanes.Conditions
import TypedCore.Proofs.Modes.FallThrough

/-!
# Where branches lead

A branch is a word that asks a question and a halfword that says how far to go. The
question is read off the fields of the word (`Half.Asks`), and nothing else decodes to a
branch (`Half.asks_of_decode`). It is answered from the registers alone
(`BranchTest.answer?`): for a comparison from the lanes of its two operands, for a test
from one bit. The answer is yes exactly if what the question says is true of the numbers
in these lanes, or of that bit (`BranchTest.answer?_iff`). The halfword is half the
distance, so that every even distance of a signed 17-bit number comes back as it was
(`Half.displacement_ofDisplacement`).

`Machine.branch_lands` follows a branch from the two fetches to the commit. What it
commits is the path of the machine with one program counter moved; a comparison of a
type without lanes raises a cause instead.
-/

namespace TypedCore

/-! ## Questions -/

/-- Whether a comparison holds in some lane of a type, or in every lane, if it has lanes. -/
def Lane.verdict? (type : RegType) (cond : Cond) (signed allLanes : Bool) (left right : Word) :
    Option Bool :=
  type.layout?.map fun l =>
    if allLanes then (List.range l.count).all (hit l cond signed left right)
    else (List.range l.count).any (hit l cond signed left right)

theorem Lane.holds_eq (type : RegType) (cond : Cond) (signed allLanes : Bool) (left right : Word) :
    holds type cond signed allLanes left right =
      match verdict? type cond signed allLanes left right with
      | some hit => .ok hit
      | none => .error .type := by
  unfold holds verdict? RegType.layout
  cases type.layout? with
  | none => rfl
  | some l =>
      rw [Option.map_some]
      show Except.ok _ = Except.ok _
      rw [compare_eq]
      cases allLanes <;> simp [List.any_map, List.all_map]

/-- Whether what a comparison says is true of the numbers in some lane of a type, or in every
lane. -/
def Lane.Verdict (type : RegType) (cond : Cond) (signed allLanes : Bool) (left right : Word) :
    Prop :=
  ∃ l, type.layout? = some l ∧
    if allLanes then ∀ i < l.count, Relates l cond signed left right i
    else ∃ i < l.count, Relates l cond signed left right i

theorem Lane.verdict?_iff {type : RegType} {cond : Cond} {signed allLanes answer : Bool}
    {left right : Word} (h : verdict? type cond signed allLanes left right = some answer) :
    answer = true ↔ Verdict type cond signed allLanes left right := by
  obtain ⟨l, hl, rfl⟩ := Option.map_eq_some_iff.mp h
  have hlayout : ∀ k, type.layout? = some k ↔ l = k := fun k => by rw [hl, Option.some_inj]
  unfold Verdict
  simp only [hlayout, exists_eq_left']
  cases allLanes with
  | true => simp [hit_iff]
  | false => simp [hit_iff]

theorem RegType.layout?_eq_none_iff {type : RegType} :
    type.layout? = none ↔ type = .mask ∨ ∃ code, type = .reserved code := by
  cases type <;> simp [layout?]

/-- What a branch asks. -/
inductive BranchTest where
  /-- Whether `$rB cond $rA` holds in some lane, or in every lane, of the type of `$rA`. -/
  | registers (cond : Cond) (signed allLanes : Bool) (b a : Nat)
  /-- The same of `$rA cond 0`, in signed lanes. -/
  | zero (cond : Cond) (allLanes : Bool) (a : Nat)
  /-- Whether a bit of a register is set, or whether it is clear. -/
  | bit (reg n : Nat) (set : Bool)

namespace BranchTest

/-- The register whose type decides what is compared. -/
def typedBy? : BranchTest → Option Nat
  | registers _ _ _ _ a | zero _ _ a => some a
  | bit .. => none

/-- The answer, if what is compared has lanes. -/
def answer? (regs : RegFile) : BranchTest → Option Bool
  | registers cond signed allLanes b a =>
    Lane.verdict? (regs.read a).type cond signed allLanes (regs.read b).value (regs.read a).value
  | zero cond allLanes a =>
    Lane.verdict? (regs.read a).type cond true allLanes (regs.read a).value 0
  | bit reg n set => some ((regs.read reg).value.getLsbD n == set)

/-- What a question asks for. -/
def Holds (regs : RegFile) : BranchTest → Prop
  | registers cond signed allLanes b a =>
    Lane.Verdict (regs.read a).type cond signed allLanes (regs.read b).value (regs.read a).value
  | zero cond allLanes a =>
    Lane.Verdict (regs.read a).type cond true allLanes (regs.read a).value 0
  | bit reg n set => (regs.read reg).value.getLsbD n = set

theorem answer?_iff {t : BranchTest} {regs : RegFile} {answer : Bool}
    (h : t.answer? regs = some answer) : answer = true ↔ t.Holds regs := by
  cases t with
  | registers cond signed allLanes b a => exact Lane.verdict?_iff h
  | zero cond allLanes a => exact Lane.verdict?_iff h
  | bit reg n set =>
      obtain rfl := Option.some.inj h
      exact beq_iff_eq

/-- The branch that asks a question and goes so far. -/
def insn (d : Int) : BranchTest → Insn
  | registers cond signed allLanes b a => .branch ⟨cond, signed, b, some a, a⟩ allLanes d
  | zero cond allLanes a => .branch ⟨cond, true, a, none, a⟩ allLanes d
  | bit reg n set => .bitBranch reg n set d

/-- What a branch does: it goes on at the distance, or behind itself, or raises a cause. -/
theorem execute_insn (t : BranchTest) (d : Int) (s : State) (p : Platform) :
    (t.insn d).execute s p =
      .ok (match t.answer? s.regs with
        | some true => .jump .active (s.pc.even.displace d)
        | some false => {}
        | none => .raise .type, p) := by
  have hcompare : ∀ (cmp : Comparison) (allLanes : Bool),
      (Insn.branch cmp allLanes d).execute s p =
        .ok (match Lane.verdict? (s.regs.read cmp.typedBy).type cmp.cond cmp.signed allLanes
            (cmp.operands s.regs).1 (cmp.operands s.regs).2 with
          | some true => .jump .active (s.pc.even.displace d)
          | some false => {}
          | none => .raise .type, p) := by
    intro cmp allLanes
    have hholds : cmp.holds allLanes s.regs =
        Lane.holds (s.regs.read cmp.typedBy).type cmp.cond cmp.signed allLanes
          (cmp.operands s.regs).1 (cmp.operands s.regs).2 := rfl
    rw [Insn.execute, hholds, Lane.holds_eq]
    cases Lane.verdict? (s.regs.read cmp.typedBy).type cmp.cond cmp.signed allLanes
        (cmp.operands s.regs).1 (cmp.operands s.regs).2 with
    | none => rfl
    | some hit => cases hit <;> rfl
  cases t with
  | registers cond signed allLanes b a => exact hcompare _ _
  | zero cond allLanes a => exact hcompare _ _
  | bit reg n set =>
      rw [insn, Insn.execute, answer?]
      cases (s.regs.read reg).value.getLsbD n <;> cases set <;> rfl

/-- Only a comparison can lack an answer, and it does if the type has no lanes. -/
theorem answer?_eq_none_iff {t : BranchTest} {regs : RegFile} :
    t.answer? regs = none ↔ ∃ a, t.typedBy? = some a ∧
      ((regs.read a).type = .mask ∨ ∃ code, (regs.read a).type = .reserved code) := by
  cases t with
  | registers cond signed allLanes b a =>
      simp [answer?, typedBy?, Lane.verdict?, RegType.layout?_eq_none_iff]
  | zero cond allLanes a =>
      simp [answer?, typedBy?, Lane.verdict?, RegType.layout?_eq_none_iff]
  | bit reg n set => simp [answer?, typedBy?]

theorem insn_inj {t t' : BranchTest} {d d' : Int} (h : t.insn d = t'.insn d') :
    t = t' ∧ d = d' := by
  cases t <;> cases t' <;> simp_all [insn]

end BranchTest

/-- Only the branch group holds branches. -/
theorem Listing.Line.branch_of {x : Word} {interpolates : Nat → Prop} {c b a e len : Nat}
    {t : BranchTest} {d : Int} (h : Line x interpolates c b a e len (t.insn d)) :
    Branch x c b a e len (t.insn d) := by
  cases h with
  | alu h => cases t <;> cases h
  | tiny h => cases t <;> cases h
  | memory h => cases t <;> cases h
  | branch h => exact h
  | extended h => cases t <;> cases h

/-! ## Encodings -/

/-- The question of a branch encoding. Codes from 8 on ask every lane. -/
inductive Half.Asks (w : Half) : BranchTest → Prop where
  | registers {code : Nat} {cond : Cond} {signed allLanes : Bool}
      (h : (code, cond, signed) ∈ Listing.regConds) (hd : w.fieldD = 15)
      (hc : w.fieldC = if allLanes then 8 + code else code) (hb : w.fieldB < 15)
      (ha : w.fieldA < 15) : w.Asks (.registers cond signed allLanes w.fieldB w.fieldA)
  | zero {code : Nat} {cond : Cond} {allLanes : Bool} (h : (code, cond) ∈ Listing.zeroConds)
      (hd : w.fieldD = 15) (hc : w.fieldC = 0)
      (hb : w.fieldB = if allLanes then 8 + code else code) (ha : w.fieldA < 15) :
      w.Asks (.zero cond allLanes w.fieldA)
  | bitSet {n : Nat} (h : (w.fieldC, n) ∈ Listing.testBits) (hd : w.fieldD = 15)
      (hb : w.fieldB = 15) (ha : w.fieldA < 15) : w.Asks (.bit w.fieldA n true)
  | bitClear {n : Nat} (h : (w.fieldC, n) ∈ Listing.testBits) (hd : w.fieldD = 15)
      (hb : w.fieldB < 15) (ha : w.fieldA = 15) : w.Asks (.bit w.fieldB n false)

namespace Half

variable {w : Half} {t : BranchTest} {d : Int}

/-- Branch encodings are those of the branch group. -/
theorem Asks.listed (h : w.Asks t) (x : Word) :
    Listing.Branch x w.fieldC w.fieldB w.fieldA w.fieldD 4 (t.insn (Listing.unmunge x)) := by
  cases h with
  | @registers code cond signed allLanes h hd hc hb ha =>
      rw [hd, hc]
      cases allLanes with
      | true => exact .regAll h hb ha
      | false => exact .reg h hb ha
  | @zero code cond allLanes h hd hc hb ha =>
      rw [hd, hc, hb]
      cases allLanes with
      | true => exact .zeroAll h ha
      | false => exact .zero h ha
  | bitSet h hd hb ha =>
      rw [hd, hb]
      exact .bitSet h ha
  | bitClear h hd hb ha =>
      rw [hd, ha]
      exact .bitClear h hb

/-- The branch group holds nothing but branch encodings. -/
theorem exists_asks {x : Word} {insn : Insn} {len : Nat}
    (h : Listing.Branch x w.fieldC w.fieldB w.fieldA w.fieldD len insn) :
    ∃ t, w.Asks t ∧ insn = t.insn (Listing.unmunge x) := by
  generalize hc : w.fieldC = c, hb : w.fieldB = b, ha : w.fieldA = a, hd : w.fieldD = e at h
  cases h with
  | @zero b a cond h hlt =>
      subst ha
      exact ⟨.zero cond false w.fieldA, .zero h hd hc hb hlt, rfl⟩
  | @zeroAll b a cond h hlt =>
      subst ha
      exact ⟨.zero cond true w.fieldA, .zero h hd hc hb hlt, rfl⟩
  | @reg c b a cond signed h hb' ha' =>
      subst ha hb
      exact ⟨.registers cond signed false w.fieldB w.fieldA, .registers h hd hc hb' ha', rfl⟩
  | @regAll c b a cond signed h hb' ha' =>
      subst ha hb
      exact ⟨.registers cond signed true w.fieldB w.fieldA, .registers h hd hc hb' ha', rfl⟩
  | @bitSet c a n h ha' =>
      subst ha hc
      exact ⟨.bit w.fieldA n true, .bitSet h hd hb ha', rfl⟩
  | @bitClear c b n h hb' =>
      subst hb hc
      exact ⟨.bit w.fieldB n false, .bitClear h hd hb' ha, rfl⟩

/-- Whatever decodes to a branch is a branch encoding, of the question that the branch asks. -/
theorem asks_of_decode {x : Word} (h : (TypedCore.decode w x).insn = t.insn d) : w.Asks t := by
  rcases listed_of_decode w x with hu | ⟨len, hl⟩
  · exact absurd (h.symm.trans hu) (by cases t <;> nofun)
  · rw [h] at hl
    obtain ⟨t', hask, ht⟩ := exists_asks (Listing.Line.branch_of hl)
    rwa [(BranchTest.insn_inj ht).1]

/-- An even distance comes back from its field. -/
theorem displacement_ofDisplacement (heven : d % 2 = 0) (hlow : -65536 ≤ d) (hhigh : d ≤ 65534) :
    displacement (ofDisplacement d) = d := by
  rw [displacement, ofDisplacement, BitVec.toInt_ofInt, Int.bmod_eq_of_le (by omega) (by omega)]
  omega

/-- A branch encoding with the field of a distance decodes to the branch that goes so far. -/
theorem Asks.decode (h : w.Asks t) (heven : d % 2 = 0) (hlow : -65536 ≤ d) (hhigh : d ≤ 65534) :
    (TypedCore.decode w ((ofDisplacement d).setWidth 32)).insn = t.insn d := by
  have hlen : w.insnLength = 4 := w.insnLength_eq.trans (h.listed 0).length
  have hd : Listing.unmunge (cutExtension w.insnLength ((ofDisplacement d).setWidth 32)) = d := by
    rw [hlen, Listing.unmunge_eq, cutExtension, Encoding.branchOffset]
    simpa using displacement_ofDisplacement heven hlow hhigh
  have hinsn := (decode_of_listed (x := (ofDisplacement d).setWidth 32) (.branch (h.listed _))).1
  rwa [hd] at hinsn

end Half

/-! ## Steps -/

theorem Word.displace_eq (a : Word) (d : Int) : a.displace d = BitVec.ofInt 32 (a.toNat + d) := by
  rw [displace, BitVec.ofInt_add, BitVec.ofInt_natCast, BitVec.ofNat_toNat, BitVec.setWidth_eq]

namespace Machine

variable {σ : Type} {m : Machine} {host : Host σ} {h : σ} {effects : Effects} {p q : Platform}

/-- Without a cause, what is committed is what the effects make of the shadow. -/
theorem committedPath_quiet {x : Option Halt} (hresult : (m.step host h).result = .ok x)
    (ha : m.attempt = .ok (effects, p)) (hc : effects.cause.isRaised = false) :
    m.committedPath host h = (effects.shadowed m.begun).nextPath := by
  rcases committedPath_cases hresult with
    ⟨effects', p', s, q, ha', hc', happly, hpath⟩ | ⟨effects', p', ha', hc', -⟩
  · obtain ⟨rfl, rfl⟩ := Prod.mk.inj (Except.ok.inj (ha.symm.trans ha'))
    obtain ⟨regs, dirty, latch, rfl⟩ := Effects.apply_eq hc happly
    exact hpath
  · obtain ⟨rfl, rfl⟩ := Prod.mk.inj (Except.ok.inj (ha.symm.trans ha'))
    rw [hc] at hc'
    cases hc'

theorem shadowed_jump (m : Machine) (a : Word) :
    ((Effects.jump .active a).shadowed m.begun).nextPath = m.state.path.goto a := by
  unfold Effects.shadowed Effects.jump State.setNextPc State.nextPath State.path Path.goto begun
    State.beginInstruction
  cases m.state.mode <;> simp

theorem shadowed_none (m : Machine) :
    (Effects.shadowed {} m.begun).nextPath =
      m.state.path.goto
        (m.state.pc.even + BitVec.ofNat 32 (fetchedClass m.fetched.1.toOption).2) := by
  rw [Effects.shadowed_nextPath rfl rfl rfl, begun_nextPath]
  unfold onward State.path Path.goto
  cases m.state.mode <;> rfl

/-- A step whose effects are no more than a place to go on from, if that. -/
theorem step_moves {next : Option Word}
    (ha : m.attempt = .ok ({ nextPc := next }, m.fetched.2)) (host : Host σ) (h : σ) :
    m.raised = .none ∧
      (m.step host h).result = .ok m.platform.bus.takeExit.1 ∧
      m.committedPath host h = (Effects.shadowed { nextPc := next } m.begun).nextPath ∧
      (m.step host h).machine.state.regs = m.state.regs ∧
      m.platform.SameContents (m.step host h).machine.platform := by
  obtain ⟨i, hi⟩ := m.fetched_usedLast
  rw [hi] at ha
  obtain ⟨hresult, hregs, hsame⟩ := step_completed ha rfl rfl host h
  have hexit : (m.platform.usedLast i).bus.takeExit.1 = m.platform.bus.takeExit.1 :=
    m.platform.bus.takeExit_usedLast i
  exact ⟨raised_eq ha, hexit ▸ hresult, committedPath_quiet hresult ha rfl,
    RegFile.ext_read hregs, .trans (.usedLast m.platform i) hsame⟩

/-- An instruction of two halfwords that are both fetched. -/
theorem fetched_of_halves {w ext : Half} (hlen : w.insnLength = 4)
    (hword : m.platform.fetchHalf m.state.mode m.state.pc.even = (.ok w, p))
    (hext : p.fetchHalf m.state.mode (m.state.pc.even + 2) = (.ok ext, q)) :
    m.fetched = (.ok (decode w (ext.setWidth 32)), q) := by
  unfold fetched Platform.fetch
  rw [hword]
  simp only [hlen, Platform.fetchExtension, hext]

theorem attempt_branch {t : BranchTest} {d : Int} (hinsn : m.insn? = some (t.insn d)) :
    m.attempt =
      .ok (match t.answer? m.state.regs with
        | some true => .jump .active (m.state.pc.even.displace d)
        | some false => {}
        | none => .raise .type, m.fetched.2) := by
  rw [m.attempt_of_insn? hinsn, BranchTest.execute_insn]
  rfl

/-- A branch whose two halfwords are fetched, for an even distance that a signed 17-bit number can
hold. If its question has an answer, no cause is raised and the step commits the path of the machine
with the program counter of the current mode moved: to the distance from the even address of the
branch if what is asked for holds, behind the branch if it does not, both around the end of memory
if need be. The other program counter, the mode, the registers and the contents of memory and
devices stay as they are. A question has no answer exactly if it compares a register of the mask or
a reserved type; then the branch raises a type cause. No word but these decodes to a branch. -/
theorem branch_lands (m : Machine) (host : Host σ) (h : σ) (w : Half) (t : BranchTest) (d : Int)
    (p q : Platform) (hask : w.Asks t)
    (hword : m.platform.fetchHalf m.state.mode m.state.pc.even = (.ok w, p))
    (hfield : p.fetchHalf m.state.mode (m.state.pc.even + 2) = (.ok (Half.ofDisplacement d), q))
    (heven : d % 2 = 0) (hlow : -65536 ≤ d) (hhigh : d ≤ 65534) :
    let after := (m.step host h).machine
    (∀ taken, t.answer? m.state.regs = some taken →
      (taken = true ↔ t.Holds m.state.regs) ∧
      m.raised = .none ∧
      (m.step host h).result = .ok m.platform.bus.takeExit.1 ∧
      m.committedPath host h = m.state.path.goto
        (BitVec.ofInt 32 ((m.state.pc.toNat / 2 * 2 : Nat) + if taken then d else 4)) ∧
      after.state.regs = m.state.regs ∧
      m.platform.SameContents after.platform) ∧
    (t.answer? m.state.regs = none ↔ ∃ a, t.typedBy? = some a ∧
      ((m.state.regs.read a).type = .mask ∨ ∃ code, (m.state.regs.read a).type = .reserved code)) ∧
    (t.answer? m.state.regs = none → m.raised = .type) ∧
    ∀ (word : Half) (x : Word) (test : BranchTest) (e : Int),
      (TypedCore.decode word x).insn = test.insn e → word.Asks test := by
  intro after
  have hlen : w.insnLength = 4 := w.insnLength_eq.trans (hask.listed 0).length
  have hfetched := fetched_of_halves hlen hword hfield
  have hclass : (fetchedClass m.fetched.1.toOption).2 = 4 := by
    rw [hfetched]
    exact hlen
  have hinsn : m.insn? = some (t.insn d) := by
    unfold insn?
    rw [hfetched]
    exact congrArg some (hask.decode heven hlow hhigh)
  have hattempt := attempt_branch hinsn
  have htarget : ∀ e : Int, m.state.pc.even.displace e =
      BitVec.ofInt 32 ((m.state.pc.toNat / 2 * 2 : Nat) + e) := by
    intro e
    rw [Word.displace_eq, Word.toNat_even]
  refine ⟨fun taken hanswer => ⟨BranchTest.answer?_iff hanswer, ?_⟩,
    BranchTest.answer?_eq_none_iff, fun hnone => ?_, fun _ _ _ _ => Half.asks_of_decode⟩
  · rw [hanswer] at hattempt
    cases taken with
    | true =>
        obtain ⟨hquiet, hresult, hpath, hkept, hcontents⟩ := step_moves hattempt host h
        refine ⟨hquiet, hresult, ?_, hkept, hcontents⟩
        rw [hpath, if_pos rfl, ← htarget d]
        exact shadowed_jump m _
    | false =>
        obtain ⟨hquiet, hresult, hpath, hkept, hcontents⟩ := step_moves hattempt host h
        refine ⟨hquiet, hresult, ?_, hkept, hcontents⟩
        rw [hpath, if_neg Bool.false_ne_true, ← htarget 4, shadowed_none, hclass]
        rfl
  · rw [hnone] at hattempt
    exact raised_eq hattempt

/-- A task whose last four bytes of memory ask whether `$r1` is below `$r2` in every lane, and say
to go sixteen bytes on. -/
def ledge (left : Word) (type : RegType) : Machine where
  state :=
    { mode := .task, tpc := 0xfffffffd, spc := 6
      regs := (RegFile.set {} 1 (.int left)).set 2 ⟨0x02ff047f, type⟩ }
  platform :=
    { model := .generic
      bus := { devices := [.ram (Ram.setBytes ⟨0xfffffff0, 16, ∅⟩ 12 [0x2f, 0xb1, 8, 0])] } }
  environment := .operating

/-- Beyond the end of memory is its beginning. The lanes are signed bytes, and in the second
machine the highest is not below the other; in a mask there are none. -/
theorem branch_lands_ledge :
    ((BranchTest.registers .lt true true 1 2).Holds (ledge 0x01fe0380 .int8x4).state.regs ∧
      (ledge 0x01fe0380 .int8x4).raised = .none ∧
      (ledge 0x01fe0380 .int8x4).committedPath Host.noting none = ⟨12, 6, .task⟩ ∧
      ((ledge 0x01fe0380 .int8x4).step Host.noting none).machine.state.regs =
        (ledge 0x01fe0380 .int8x4).state.regs) ∧
    (¬ (BranchTest.registers .lt true true 1 2).Holds (ledge 0x03fe0380 .int8x4).state.regs ∧
      (ledge 0x03fe0380 .int8x4).raised = .none ∧
      (ledge 0x03fe0380 .int8x4).committedPath Host.noting none = ⟨0, 6, .task⟩ ∧
      ((ledge 0x03fe0380 .int8x4).step Host.noting none).machine.state.regs =
        (ledge 0x03fe0380 .int8x4).state.regs) ∧
    (ledge 0x01fe0380 .mask).raised = .type := by
  have hfetch : ∀ left type, ∃ p q,
      p.fetchHalf .task 0xfffffffe = (.ok (Half.ofDisplacement 16), q) ∧
      (ledge left type).platform.fetchHalf .task 0xfffffffc = (.ok 0xb12f, p) := fun _ _ =>
    ⟨_, _, rfl, rfl⟩
  have hask : Half.Asks 0xb12f
      (.registers .lt true true (Half.fieldB 0xb12f) (Half.fieldA 0xb12f)) :=
    .registers (show (3, Cond.lt, true) ∈ Listing.regConds by decide) (by decide) (by decide)
      (by decide) (by decide)
  refine ⟨?_, ?_, ?_⟩
  · obtain ⟨p, q, hfield, hword⟩ := hfetch 0x01fe0380 .int8x4
    obtain ⟨hcompares, -⟩ := branch_lands (ledge 0x01fe0380 .int8x4) Host.noting none 0xb12f _ 16
      p q hask hword hfield (by decide) (by decide) (by decide)
    obtain ⟨hholds, hquiet, -, hpath, hregs, -⟩ := hcompares true (by decide +kernel)
    exact ⟨hholds.mp rfl, hquiet, hpath, hregs⟩
  · obtain ⟨p, q, hfield, hword⟩ := hfetch 0x03fe0380 .int8x4
    obtain ⟨hcompares, -⟩ := branch_lands (ledge 0x03fe0380 .int8x4) Host.noting none 0xb12f _ 16
      p q hask hword hfield (by decide) (by decide) (by decide)
    obtain ⟨hholds, hquiet, -, hpath, hregs, -⟩ := hcompares false (by decide +kernel)
    exact ⟨mt hholds.mpr Bool.false_ne_true, hquiet, hpath, hregs⟩
  · obtain ⟨p, q, hfield, hword⟩ := hfetch 0x01fe0380 .mask
    obtain ⟨-, -, hraises, -⟩ := branch_lands (ledge 0x01fe0380 .mask) Host.noting none 0xb12f _ 16
      p q hask hword hfield (by decide) (by decide) (by decide)
    exact hraises (by decide +kernel)

end Machine

end TypedCore
