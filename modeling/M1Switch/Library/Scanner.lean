import Mathlib.Data.List.Basic
import Mathlib.Order.Lattice

/-
  Incremental scanners over a stream of symbols.

  A scanner reads the unread input and either consumes a
  nonempty prefix of it, producing output, or stops.  A step
  that succeeds is determined by the prefix it consumes, so
  symbols that arrive later do not change it.  That is what
  makes a scan resumable.

  Key definitions include:
    * `Scanner`
    * `run`

  Main results:
    * `run_of_mem_heads`
    * `run_flatMap_append`
    * `heads_flatMap_append`
-/

------
-- Scanners And Their Runs
------

/-
  A step function that makes progress and whose decision is
  determined by the symbols it consumes.
-/
structure Scanner (α β : Type*) where
  step : List α → Option (Nat × List β)
  progress :
    ∀ {input n out}, step input = some (n, out) →
      0 < n ∧ n ≤ input.length
  determined :
    ∀ {input n out}, step input = some (n, out) →
      ∀ more, step (input.take n ++ more) = some (n, out)

namespace Scanner

variable {α β : Type*} (S : Scanner α β)

/- Iterate the step at most `fuel` times. -/
def runFuel : Nat → List α → Nat × List β
| 0, _ => (0, [])
| fuel + 1, input =>
    match S.step input with
    | none => (0, [])
    | some (n, out) =>
        let later := runFuel fuel (input.drop n)
        (n + later.1, out ++ later.2)

/- Scan until the step stops. -/
def run (input : List α) : Nat × List β :=
  S.runFuel input.length input

/- Offsets at which one of `fuel` iterations starts. -/
def headsFuel : Nat → List α → List Nat
| 0, _ => []
| _ + 1, [] => []
| fuel + 1, a :: input =>
    match S.step (a :: input) with
    | none => [0]
    | some (n, _) =>
        0 :: (headsFuel fuel ((a :: input).drop n)).map
          (n + ·)

/- Offsets at which the scan starts an iteration. -/
def heads (input : List α) : List Nat :=
  S.headsFuel input.length input

/- Input behind a successful step does not change it. -/
theorem stable
    {input : List α} {n : Nat} {out : List β}
    (hStep : S.step input = some (n, out))
    (more : List α) :
    S.step (input ++ more) = some (n, out) := by
  have hMore := S.determined hStep (input.drop n ++ more)
  rwa [← List.append_assoc, List.take_append_drop] at hMore

/- No scanner steps on the empty input. -/
theorem step_nil : S.step [] = none := by
  cases hStep : S.step [] with
  | none => rfl
  | some r =>
      rcases r with ⟨n, out⟩
      rcases S.progress hStep with ⟨hPos, hLe⟩
      simp at hLe
      omega

/-
  Induction along a run: the claim holds where the step
  stops, and passes from the unread rest to the input.
-/
theorem run_induction
    {motive : List α → Prop}
    (stop :
      ∀ input, S.step input = none → motive input)
    (advance :
      ∀ input n out, S.step input = some (n, out) →
        motive (input.drop n) → motive input)
    (input : List α) : motive input := by
  induction hLen : input.length using Nat.strongRecOn
    generalizing input with
  | ind m ih =>
      cases hStep : S.step input with
      | none => exact stop input hStep
      | some r =>
          rcases r with ⟨n, out⟩
          rcases S.progress hStep with ⟨hPos, hLe⟩
          apply advance input n out hStep
          exact ih (input.drop n).length
            (by simp; omega) _ rfl

/- Fuel beyond the input length changes nothing. -/
theorem runFuel_congr
    (input : List α)
    (f g : Nat)
    (hf : input.length ≤ f)
    (hg : input.length ≤ g) :
    S.runFuel f input = S.runFuel g input := by
  induction input using S.run_induction generalizing f g with
  | stop input hStep =>
      cases f <;> cases g <;> simp [runFuel, hStep]
  | advance input n out hStep ih =>
      rcases S.progress hStep with ⟨hPos, hLe⟩
      rcases Nat.exists_eq_succ_of_ne_zero
        (by omega : f ≠ 0) with ⟨f, rfl⟩
      rcases Nat.exists_eq_succ_of_ne_zero
        (by omega : g ≠ 0) with ⟨g, rfl⟩
      have hLater :=
        ih f g (by simp; omega) (by simp; omega)
      simp [runFuel, hStep, hLater]

/- Enough fuel gives the run. -/
theorem runFuel_eq_run
    (input : List α)
    (fuel : Nat)
    (hFuel : input.length ≤ fuel) :
    S.runFuel fuel input = S.run input :=
  S.runFuel_congr input fuel input.length hFuel
    (Nat.le_refl _)

/- The loop equation when the step stops. -/
theorem run_of_stop
    {input : List α}
    (hStep : S.step input = none) :
    S.run input = (0, []) := by
  unfold run
  cases input.length <;> simp [runFuel, hStep]

/- The loop equation when the step consumes `n` symbols. -/
theorem run_of_step
    {input : List α} {n : Nat} {out : List β}
    (hStep : S.step input = some (n, out)) :
    S.run input =
      (n + (S.run (input.drop n)).1,
        out ++ (S.run (input.drop n)).2) := by
  rw [← S.runFuel_eq_run input (input.length + 1)
    (Nat.le_succ _)]
  have hLater :=
    S.runFuel_eq_run (input.drop n) input.length (by simp)
  simp [runFuel, hStep, hLater]

/- The empty input is scanned without output. -/
@[simp] theorem run_nil : S.run [] = (0, []) :=
  S.run_of_stop S.step_nil

------
-- Resumption
------

/- A run consumes at most its input. -/
theorem run_consumed_le (input : List α) :
    (S.run input).1 ≤ input.length := by
  induction input using S.run_induction with
  | stop input hStep =>
      simp [S.run_of_stop hStep]
  | advance input n out hStep ih =>
      rcases S.progress hStep with ⟨hPos, hLe⟩
      rw [S.run_of_step hStep]
      rw [List.length_drop] at ih
      simp only
      omega

/-
  Scanning `a` and then the unread rest of `a` followed by
  `b` is scanning `a ++ b`.
-/
theorem run_append (a b : List α) :
    S.run (a ++ b) =
      ((S.run a).1 +
          (S.run (a.drop (S.run a).1 ++ b)).1,
        (S.run a).2 ++
          (S.run (a.drop (S.run a).1 ++ b)).2) := by
  induction a using S.run_induction with
  | stop a hStep =>
      simp [S.run_of_stop hStep]
  | advance a n out hStep ih =>
      rcases S.progress hStep with ⟨hPos, hLe⟩
      have hDrop : (a ++ b).drop n = a.drop n ++ b :=
        List.drop_append_of_le_length hLe
      rw [S.run_of_step (S.stable hStep b), hDrop, ih,
        S.run_of_step hStep]
      simp [List.drop_drop, Nat.add_assoc]

/- A prefix that a step fits in starts with the same step. -/
theorem run_take_of_step
    {a : List α} {n : Nat} {out : List β}
    (hStep : S.step a = some (n, out))
    (k : Nat) :
    S.run (a.take (n + k)) =
      (n + (S.run ((a.drop n).take k)).1,
        out ++ (S.run ((a.drop n).take k)).2) := by
  have hLe := (S.progress hStep).2
  have hPrefix := S.determined hStep ((a.drop n).take k)
  have hDrop :
      (a.take n ++ (a.drop n).take k).drop n =
        (a.drop n).take k :=
    List.drop_left' (by simp [hLe])
  rw [List.take_add, S.run_of_step hPrefix, hDrop]

------
-- Framed Streams
------

variable {α β φ : Type*} (S : Scanner α β)

/-
  A stream of frames that each take exactly one step is
  scanned frame by frame.
-/
theorem run_flatMap_append
    (encode : φ → List α)
    (emit : φ → List β)
    (frames : List φ)
    (hFrame :
      ∀ f ∈ frames, ∀ more,
        S.step (encode f ++ more) =
          some ((encode f).length, emit f))
    (rest : List α) :
    S.run (frames.flatMap encode ++ rest) =
      ((frames.flatMap encode).length + (S.run rest).1,
        frames.flatMap emit ++ (S.run rest).2) := by
  induction frames with
  | nil => simp
  | cons f frames ih =>
      have hLater :=
        ih (fun g hg => hFrame g (List.mem_cons_of_mem _ hg))
      have hHead :=
        hFrame f List.mem_cons_self
          (frames.flatMap encode ++ rest)
      have hDrop :
          (encode f ++ (frames.flatMap encode ++ rest)).drop
              (encode f).length =
            frames.flatMap encode ++ rest :=
        List.drop_left
      rw [List.flatMap_cons, List.append_assoc,
        S.run_of_step hHead, hDrop, hLater]
      simp [Nat.add_assoc]

------
-- Iteration Offsets
------

/- Fuel beyond the input length adds no offset. -/
theorem headsFuel_congr
    (input : List α)
    (f g : Nat)
    (hf : input.length ≤ f)
    (hg : input.length ≤ g) :
    S.headsFuel f input = S.headsFuel g input := by
  induction input using S.run_induction generalizing f g with
  | stop input hStep =>
      cases input with
      | nil => cases f <;> cases g <;> rfl
      | cons a input =>
          cases f <;> cases g <;>
            simp_all [headsFuel]
  | advance input n out hStep ih =>
      rcases S.progress hStep with ⟨hPos, hLe⟩
      cases input with
      | nil => simp at hLe; omega
      | cons a input =>
          rcases Nat.exists_eq_succ_of_ne_zero
            (by rintro rfl; simp at hf : f ≠ 0) with ⟨f, rfl⟩
          rcases Nat.exists_eq_succ_of_ne_zero
            (by rintro rfl; simp at hg : g ≠ 0) with ⟨g, rfl⟩
          simp only [List.length_cons] at hf hg
          have hLater :=
            ih f g (by simp; omega) (by simp; omega)
          simp [headsFuel, hStep, hLater]

/- Nonempty input is read at its first symbol. -/
theorem zero_mem_heads
    {input : List α}
    (hInput : input ≠ []) :
    0 ∈ S.heads input := by
  cases input with
  | nil => exact absurd rfl hInput
  | cons a input =>
      cases hStep : S.step (a :: input) <;>
        simp [heads, headsFuel, hStep]

/- Offsets of a stepping input continue behind the step. -/
theorem heads_of_step
    {input : List α} {n : Nat} {out : List β}
    (hStep : S.step input = some (n, out)) :
    S.heads input =
      0 :: (S.heads (input.drop n)).map (n + ·) := by
  rcases S.progress hStep with ⟨hPos, hLe⟩
  cases input with
  | nil => simp at hLe; omega
  | cons a input =>
      have hLater :=
        S.headsFuel_congr ((a :: input).drop n)
          input.length ((a :: input).drop n).length
          (by simp; omega) (Nat.le_refl _)
      simp [heads, headsFuel, hStep, hLater]

/-
  A run is cut at any of its offsets: it outputs what the
  symbols in front give, and then what the rest gives.
-/
theorem run_of_mem_heads
    {input : List α} {pos : Nat}
    (hPos : pos ∈ S.heads input) :
    S.run input =
      (pos + (S.run (input.drop pos)).1,
        (S.run (input.take pos)).2 ++
          (S.run (input.drop pos)).2) := by
  induction input using S.run_induction generalizing pos with
  | stop input hStep =>
      have hZero : pos = 0 := by
        cases input with
        | nil => simp [heads, headsFuel] at hPos
        | cons a input =>
            simpa [heads, headsFuel, hStep] using hPos
      subst hZero
      simp
  | advance input n out hStep ih =>
      rw [S.heads_of_step hStep] at hPos
      rcases List.mem_cons.mp hPos with rfl | hLater
      · simp
      · rcases List.mem_map.mp hLater with ⟨q, hQ, rfl⟩
        rw [S.run_take_of_step hStep, S.run_of_step hStep,
          ih hQ, List.drop_drop]
        simp [Nat.add_assoc]

/- Frames of a framed stream start where they are laid out. -/
theorem heads_flatMap_append
    (encode : φ → List α)
    (emit : φ → List β)
    (frames : List φ)
    (hFrame :
      ∀ f ∈ frames, ∀ more,
        S.step (encode f ++ more) =
          some ((encode f).length, emit f))
    (rest : List α)
    (p : Nat) :
    p ∈ S.heads (frames.flatMap encode ++ rest) ↔
      (∃ before f after, frames = before ++ f :: after ∧
        p = (before.flatMap encode).length) ∨
      ∃ q ∈ S.heads rest,
        p = (frames.flatMap encode).length + q := by
  induction frames generalizing p with
  | nil => simp
  | cons f frames ih =>
      have hLater :=
        ih (fun g hg => hFrame g (List.mem_cons_of_mem _ hg))
      have hHead :=
        hFrame f List.mem_cons_self
          (frames.flatMap encode ++ rest)
      have hDrop :
          (encode f ++ (frames.flatMap encode ++ rest)).drop
              (encode f).length =
            frames.flatMap encode ++ rest :=
        List.drop_left
      rw [List.flatMap_cons, List.append_assoc,
        S.heads_of_step hHead, hDrop]
      simp only [List.mem_cons, List.mem_map, hLater]
      constructor
      · intro hMem
        rcases hMem with rfl | ⟨q, hq | hq, rfl⟩
        · exact .inl ⟨[], f, frames, rfl, rfl⟩
        · rcases hq with ⟨before, g, after, rfl, rfl⟩
          exact .inl ⟨f :: before, g, after, rfl, by simp⟩
        · rcases hq with ⟨r, hr, rfl⟩
          exact .inr ⟨r, hr, by simp [Nat.add_assoc]⟩
      · intro hMem
        rcases hMem with
          ⟨before, g, after, hEq, rfl⟩ | ⟨r, hr, rfl⟩
        · cases before with
          | nil => exact .inl rfl
          | cons b before =>
              rcases List.cons.inj hEq with ⟨rfl, rfl⟩
              exact .inr ⟨_, .inl ⟨before, g, after, rfl, rfl⟩,
                by simp⟩
        · exact .inr ⟨_, .inr ⟨r, hr, rfl⟩,
            by simp [Nat.add_assoc]⟩

end Scanner
