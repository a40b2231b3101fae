/-
Programs. A program is a sequence of instructions and loops, and a loop holds a program, so one
type describes both: `nil`, an instruction with the rest, or a loop body with the rest. Beside the
tree stand its views: the tokens that spell it, its preorder walk, and how deep its loops nest.
-/
import ByteTape.Token

namespace ByteTape

/-- An instruction without parts of its own: an operation of the language, or a `foreign` one with
a name but no meaning here. A program built by hand may hold a foreign one, and a run fails on it. -/
inductive Instruction where
  | op (o : Op)
  | foreign (name : String)
  deriving DecidableEq

/-- A sequence of instructions and loops. -/
inductive Program where
  | nil
  | instr (i : Instruction) (rest : Program)
  | loop (body rest : Program)
  deriving DecidableEq

/-- The instruction a token stands for by itself; the two brackets stand for none. -/
def Token.instruction? : Token → Option Instruction
  | .op o => some (.op o)
  | .loopBegin | .loopEnd => none

namespace Instruction

/-- The tokens that spell an instruction: one for an operation, none for a foreign name. -/
def tokens : Instruction → List Token
  | .op o => [.op o]
  | .foreign _ => []

/-- The name an instruction is listed under. -/
def label : Instruction → String
  | .op o => o.label
  | .foreign name => name

/-- Not foreign. -/
def IsNative : Instruction → Prop
  | .op _ => True
  | .foreign _ => False

end Instruction

namespace Program

/-! ## Sequences -/

/-- How many instructions and loops stand at the top level. -/
def length : Program → Nat
  | .nil => 0
  | .instr _ rest => rest.length + 1
  | .loop _ rest => rest.length + 1

/-- One program after the other. -/
def append : Program → Program → Program
  | .nil, q => q
  | .instr i rest, q => .instr i (rest.append q)
  | .loop body rest, q => .loop body (rest.append q)

instance : Append Program := ⟨append⟩

@[simp] theorem nil_append (q : Program) : nil ++ q = q := rfl

@[simp] theorem instr_append (i : Instruction) (p q : Program) :
    instr i p ++ q = instr i (p ++ q) := rfl

@[simp] theorem loop_append (b p q : Program) : loop b p ++ q = loop b (p ++ q) := rfl

@[simp] theorem append_nil (p : Program) : p ++ nil = p := by
  induction p with
  | nil => rfl
  | instr i rest ih => rw [instr_append, ih]
  | loop b rest _ ih => rw [loop_append, ih]

theorem append_assoc (p q r : Program) : p ++ q ++ r = p ++ (q ++ r) := by
  induction p with
  | nil => rfl
  | instr i rest ih => simp only [instr_append, ih]
  | loop b rest _ ih => simp only [loop_append, ih]

theorem length_append (p q : Program) : (p ++ q).length = p.length + q.length := by
  induction p with
  | nil => rw [nil_append, length, Nat.zero_add]
  | instr i rest ih => simp only [instr_append, length, ih]; omega
  | loop b rest _ ih => simp only [loop_append, length, ih]; omega

/-- Sequences that end in as many instructions and loops, and are the same, end in the same ones. -/
theorem append_inj_right {p p' q q' : Program} (h : p ++ q = p' ++ q')
    (hlength : q.length = q'.length) : q = q' := by
  have hfront : p.length = p'.length := by
    have := congrArg length h
    rw [length_append, length_append] at this
    omega
  induction p generalizing p' with
  | nil =>
    cases p' with
    | nil => exact h
    | instr i rest | loop b rest => cases hfront
  | instr i rest ih =>
    cases p' with
    | nil => cases hfront
    | loop b rest' => cases h
    | instr i' rest' =>
      injection h with _ h
      exact ih h (Nat.succ.inj hfront)
  | loop b rest _ ih =>
    cases p' with
    | nil => cases hfront
    | instr i rest' => cases h
    | loop b' rest' =>
      injection h with _ h
      exact ih h (Nat.succ.inj hfront)

/-- The top-level sequence of `p`, backwards, in front of `q`. Bodies stay as they are. -/
def reverseOnto : Program → Program → Program
  | .nil, q => q
  | .instr i rest, q => rest.reverseOnto (.instr i q)
  | .loop body rest, q => rest.reverseOnto (.loop body q)

/-- The top-level sequence backwards. -/
def reverse (p : Program) : Program := p.reverseOnto .nil

theorem reverseOnto_eq (p q : Program) : p.reverseOnto q = p.reverse ++ q := by
  unfold reverse
  induction p generalizing q with
  | nil => rfl
  | instr i rest ih => simp only [reverseOnto]; rw [ih, ih (.instr i .nil), append_assoc]; rfl
  | loop b rest _ ih => simp only [reverseOnto]; rw [ih, ih (.loop b .nil), append_assoc]; rfl

/-! ## Views -/

/-- Built from the operations of the language alone. -/
def IsNative : Program → Prop
  | .nil => True
  | .instr i rest => i.IsNative ∧ rest.IsNative
  | .loop body rest => body.IsNative ∧ rest.IsNative

/-- The tokens that spell a program. -/
def tokens : Program → List Token
  | .nil => []
  | .instr i rest => i.tokens ++ rest.tokens
  | .loop body rest => .loopBegin :: body.tokens ++ .loopEnd :: rest.tokens

/-- The bytes that spell a program. -/
def bytes (p : Program) : List UInt8 := p.tokens.map Token.byte

/-- An entry of a walk: an instruction, or a loop as a whole. -/
inductive Node where
  | instr (i : Instruction)
  | loop
  deriving DecidableEq

def Node.label : Node → String
  | .instr i => i.label
  | .loop => "Loop"

/-- The preorder walk from a depth on, in front of what is listed after it: a loop before its
body, and the body one level deeper. -/
def walkOnto (depth : Nat) : Program → List (Nat × Node) → List (Nat × Node)
  | .nil, tail => tail
  | .instr i rest, tail => (depth, .instr i) :: walkOnto depth rest tail
  | .loop body rest, tail =>
    (depth, .loop) :: walkOnto (depth + 1) body (walkOnto depth rest tail)

/-- The preorder walk: every instruction and loop with its depth, the top level at depth 0. -/
def walk (p : Program) : List (Nat × Node) := walkOnto 0 p []

/-- How deep loops nest. -/
def depth : Program → Nat
  | .nil => 0
  | .instr _ rest => rest.depth
  | .loop body rest => max (body.depth + 1) rest.depth

theorem walkOnto_eq (p : Program) (d : Nat) (tail : List (Nat × Node)) :
    walkOnto d p tail = walkOnto d p [] ++ tail := by
  induction p generalizing d tail with
  | nil => rfl
  | instr i rest ih => simp only [walkOnto]; rw [ih]; rfl
  | loop b rest ihb ih =>
    simp only [walkOnto]; rw [ihb, ih, ihb (d + 1) (walkOnto d rest [])]; simp

theorem tokens_append (p q : Program) : (p ++ q).tokens = p.tokens ++ q.tokens := by
  induction p with
  | nil => rfl
  | instr i rest ih => simp only [instr_append, tokens, ih, List.append_assoc]
  | loop b rest _ ih => simp [tokens, ih]

end Program

end ByteTape
