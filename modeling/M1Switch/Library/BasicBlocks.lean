import Mathlib.Data.List.Basic

/-
  Lists that are sequences of basic blocks.

  A block is a label, plain elements and a terminator.  A scan
  that remembers whether a block is open accepts exactly the
  sequences of blocks, and scans of parts compose.

  Key definitions include:
    * `BasicBlocks.IsBlock`
    * `BasicBlocks.Blocks`

  Main results:
    * `scan_append`
    * `blocks_iff_scan`
-/

------
-- Blocks
------

namespace BasicBlocks

inductive Kind where
  | label
  | plain
  | terminator
deriving DecidableEq, Repr

variable {α : Type} {kind : α → Kind} {xs ys : List α}

/- A label, plain elements and one terminator at the end. -/
def IsBlock (kind : α → Kind) (xs : List α) : Prop :=
  ∃ l mid t,
    xs = l :: mid ++ [t] ∧ kind l = .label ∧
      (∀ x ∈ mid, kind x = .plain) ∧ kind t = .terminator

/- One block or more, and nothing else. -/
def Blocks (kind : α → Kind) (xs : List α) : Prop :=
  ∃ blocks : List (List α),
    blocks ≠ [] ∧ (∀ b ∈ blocks, IsBlock kind b) ∧
      xs = blocks.flatten

/- Whether a block is open behind an element. -/
def advance : Bool → Kind → Option Bool
| false, .label => some true
| true, .plain => some true
| true, .terminator => some false
| _, _ => none

def scan (kind : α → Kind) : List α → Bool → Option Bool
| [], isOpen => some isOpen
| x :: xs, isOpen => (advance isOpen (kind x)).bind (scan kind xs)

------
-- Scans
------

theorem scan_append (isOpen : Bool) :
    scan kind (xs ++ ys) isOpen =
      (scan kind xs isOpen).bind (scan kind ys) := by
  induction xs generalizing isOpen with
  | nil => rfl
  | cons x xs ih =>
      rw [List.cons_append, scan, scan, Option.bind_assoc]
      congr 1
      funext isOpen'
      exact ih isOpen'

/- Plain elements stand in an open block. -/
theorem scan_plain
    (hPlain : ∀ x ∈ xs, kind x = .plain) :
    scan kind xs true = some true := by
  induction xs with
  | nil => rfl
  | cons x xs ih =>
      rw [List.forall_mem_cons] at hPlain
      rw [scan, hPlain.1]
      exact ih hPlain.2

theorem scan_plain_closed
    (hPlain : ∀ x ∈ xs, kind x = .plain)
    (hSome : xs ≠ []) :
    scan kind xs false = none := by
  cases xs with
  | nil => exact absurd rfl hSome
  | cons x xs =>
      rw [scan, hPlain x List.mem_cons_self]
      rfl

theorem scan_isBlock
    (hBlock : IsBlock kind xs) :
    scan kind xs false = some false := by
  rcases hBlock with ⟨l, mid, t, hXs, hLabel, hMid, hEnd⟩
  subst hXs
  rw [List.cons_append, scan, hLabel]
  show scan kind (mid ++ [t]) true = some false
  rw [scan_append, scan_plain hMid]
  show (advance true (kind t)).bind _ = some false
  rw [hEnd]
  rfl

/- What the scan accepts inside a block. -/
theorem exists_of_scan_open :
    ∀ xs : List α, scan kind xs true = some false →
      ∃ mid t rest,
        xs = mid ++ t :: rest ∧
          (∀ x ∈ mid, kind x = .plain) ∧
            kind t = .terminator ∧
              scan kind rest false = some false := by
  intro xs
  induction xs with
  | nil =>
      intro hScan
      cases hScan
  | cons x xs ih =>
      intro hScan
      rw [scan] at hScan
      cases hKind : kind x with
      | label =>
          rw [hKind] at hScan
          cases hScan
      | plain =>
          rw [hKind] at hScan
          rcases ih hScan with
            ⟨mid, t, rest, hXs, hMid, hEnd, hRest⟩
          refine ⟨x :: mid, t, rest, ?_, ?_, hEnd, hRest⟩
          · rw [hXs, List.cons_append]
          · exact List.forall_mem_cons.mpr ⟨hKind, hMid⟩
      | terminator =>
          rw [hKind] at hScan
          refine ⟨[], x, xs, rfl, ?_, hKind, hScan⟩
          intro y hY
          cases hY

/- The scan accepts sequences of blocks only. -/
theorem exists_of_scan :
    ∀ (n : Nat) (xs : List α), xs.length ≤ n →
      scan kind xs false = some false →
        ∃ blocks : List (List α),
          (∀ b ∈ blocks, IsBlock kind b) ∧
            xs = blocks.flatten := by
  intro n
  induction n with
  | zero =>
      intro xs hLength _
      have hNil := List.length_eq_zero_iff.mp
        (Nat.le_zero.mp hLength)
      exact ⟨[], by simp, hNil⟩
  | succ n ih =>
      intro xs hLength hScan
      cases xs with
      | nil => exact ⟨[], by simp, rfl⟩
      | cons x xs =>
          rw [scan] at hScan
          cases hKind : kind x with
          | plain =>
              rw [hKind] at hScan
              cases hScan
          | terminator =>
              rw [hKind] at hScan
              cases hScan
          | label =>
              rw [hKind] at hScan
              rcases exists_of_scan_open xs hScan with
                ⟨mid, t, rest, hXs, hMid, hEnd, hRest⟩
              have hShort : rest.length ≤ n := by
                have := congrArg List.length hXs
                simp only [List.length_append,
                  List.length_cons] at this hLength
                omega
              rcases ih rest hShort hRest with
                ⟨blocks, hBlocks, hFlat⟩
              refine ⟨(x :: mid ++ [t]) :: blocks, ?_, ?_⟩
              · exact List.forall_mem_cons.mpr
                  ⟨⟨x, mid, t, rfl, hKind, hMid, hEnd⟩,
                    hBlocks⟩
              · rw [hXs, hFlat]
                simp

/- The scan accepts exactly the sequences of blocks. -/
theorem blocks_iff_scan
    (hSome : xs ≠ []) :
    Blocks kind xs ↔ scan kind xs false = some false := by
  constructor
  · rintro ⟨blocks, hNe, hBlocks, hXs⟩
    subst hXs
    clear hSome hNe
    induction blocks with
    | nil => rfl
    | cons b blocks ih =>
        rw [List.forall_mem_cons] at hBlocks
        rw [List.flatten_cons, scan_append,
          scan_isBlock hBlocks.1]
        exact ih hBlocks.2
  · intro hScan
    rcases exists_of_scan xs.length xs (Nat.le_refl _) hScan with
      ⟨blocks, hBlocks, hFlat⟩
    refine ⟨blocks, ?_, hBlocks, hFlat⟩
    intro hNil
    rw [hNil] at hFlat
    exact hSome hFlat

end BasicBlocks
