import Nullspace.Base.Search
import Nullspace.Directory.Server
import Nullspace.Symbolic

/-!
# Solving a proof of work

`solve_pow` looks for a nonce from a random one on, and `validate_solution` of the directory
checks what it found. `solvePow_validates` says that the directory accepts what is returned;
`solvePow_returns_iff` when something is.
-/

namespace Nullspace

open Nullspace.Base

variable {P : Primitives}

/-- `PowAlgo`. -/
inductive PowAlgo where
  | equiX (effort : UInt64)
deriving DecidableEq

/-- `PowSeed`. -/
structure PowSeed (P : Primitives) where
  algo : PowAlgo
  seed : P.Hash
  useBefore : Timestamp

/-- The bytes of a solution of the `equix` crate. -/
abbrev EquixSolution := FixedBytes solutionNumBytes

/-- `EquiX::solve`, with the solutions as their bytes. -/
abbrev EquixSolver := Bytes → Option (List EquixSolution)

/-- The challenge of a nonce. -/
def equixChallenge (seed : PowSeed P) (nonce : UInt64) : Bytes :=
  P.hashBytes (P.keyedDigest (P.hashBytes seed.seed) (Bcs.toBytes nonce).reverse)

/-- A turn of the loop of `solve_equix_pow`: the first solution which is worth the effort. -/
def tryNonce (equixSolve : EquixSolver) (seed : PowSeed P) (effort : UInt64) (nonce : UInt64) :
    Option (PowSolution P) :=
  match equixSolve (equixChallenge seed nonce) with
  | none => none
  | some solutions =>
      (solutions.find? fun solution =>
        let value := beValue ((P.hashBytes (P.digest solution.1)).take 8)
        decide (value * effort.toNat < 2 ^ 64)).map fun solution => ⟨seed.seed, nonce, solution.1⟩

/-- `solve_equix_pow` from a nonce on, as far as it comes in some turns. -/
def solveEquixPow (equixSolve : EquixSolver) (seed : PowSeed P) (effort : UInt64) (turns : Nat)
    (nonce : UInt64) : Option (PowSolution P) :=
  searchFrom (tryNonce equixSolve seed effort) (fun nonce => nonce + 1) turns nonce

/-- `solve_pow`. -/
def solvePow (equixSolve : EquixSolver) (seed : PowSeed P) (turns : Nat) (nonce : UInt64) :
    Option (PowSolution P) :=
  match seed.algo with
  | .equiX effort => solveEquixPow equixSolve seed effort turns nonce

/-- What the crate promises: `verify_bytes` accepts what `solve` returns. -/
def Solves (equixSolve : EquixSolver) (equixVerify : Bytes → Bytes → Bool) : Prop :=
  ∀ challenge solutions, equixSolve challenge = some solutions →
    ∀ solution ∈ solutions, equixVerify challenge solution.1 = true

variable {equixSolve : EquixSolver} {equixVerify : Bytes → Bytes → Bool}

/-- A nonce which the loop stops at belongs to a valid solution. -/
theorem validateSolution_of_tryNonce (solves : Solves equixSolve equixVerify) {seed : PowSeed P}
    {effort nonce : UInt64} {solution : PowSolution P}
    (found : tryNonce equixSolve seed effort nonce = some solution) :
    validateSolution equixVerify seed.seed effort solution = .ok () := by
  unfold tryNonce at found
  cases solved : equixSolve (equixChallenge seed nonce) with
  | none =>
      rw [solved] at found
      cases found
  | some solutions =>
      simp only [solved, Option.map_eq_some_iff] at found
      obtain ⟨bytes, chosen, rfl⟩ := found
      have listed : bytes ∈ solutions := List.mem_of_find?_eq_some chosen
      have passes := List.find?_some chosen
      have worth := of_decide_eq_true passes
      have verified := solves _ _ solved bytes listed
      rw [equixChallenge] at verified
      rw [validateSolution, if_neg (not_not.mpr rfl)]
      simp only [bytes.2, verified, worth, ne_eq, not_true_eq_false, if_false, if_true,
        Bool.not_true, Bool.false_eq_true]

/-- Whatever nonce the search starts with, the directory accepts what it returns. -/
theorem solvePow_validates (solves : Solves equixSolve equixVerify) {seed : PowSeed P}
    {effort : UInt64} (algo : seed.algo = .equiX effort) {turns : Nat} {nonce : UInt64}
    {solution : PowSolution P} (returned : solvePow equixSolve seed turns nonce = some solution) :
    validateSolution equixVerify seed.seed effort solution = .ok () := by
  rw [solvePow, algo] at returned
  obtain ⟨steps, -, found, -⟩ := searchFrom_eq_some_iff.mp returned
  exact validateSolution_of_tryNonce solves found

/-- The search goes through all nonces. -/
theorem iterate_nonce (steps : Nat) (nonce : UInt64) :
    (fun nonce : UInt64 => nonce + 1)^[steps] nonce = nonce + UInt64.ofNat steps := by
  induction steps with
  | zero => simp
  | succ steps ih =>
      rw [Function.iterate_succ_apply', ih, UInt64.ofNat_add, UInt64.add_assoc]
      rfl

/-- The search returns something, wherever it starts, exactly when some nonce has a solution
which is worth the effort. -/
theorem solvePow_returns_iff {seed : PowSeed P} {effort : UInt64}
    (algo : seed.algo = .equiX effort) (start : UInt64) :
    (∃ turns solution, solvePow equixSolve seed turns start = some solution) ↔
      ∃ nonce solution, tryNonce equixSolve seed effort nonce = some solution := by
  simp only [solvePow, algo, solveEquixPow]
  rw [exists_searchFrom_iff]
  constructor
  · rintro ⟨steps, solution, found⟩
    exact ⟨_, solution, found⟩
  · rintro ⟨nonce, solution, found⟩
    refine ⟨(nonce - start).toNat, solution, ?_⟩
    rwa [iterate_nonce, UInt64.ofNat_toNat, UInt64.add_comm, UInt64.sub_add_cancel]

def zeroSolution : EquixSolution := ⟨List.replicate solutionNumBytes 0, List.length_replicate⟩

/-- Challenges which end in zero have one solution, and others none. -/
def zeroSolver : EquixSolver := fun challenge =>
  if challenge.getLast? = some 0 then some [zeroSolution] else none

def zeroVerifier (challenge solution : Bytes) : Bool :=
  decide (challenge.getLast? = some 0 ∧ solution = zeroSolution.1)

theorem zeroSolver_solves : Solves zeroSolver zeroVerifier := by
  intro challenge solutions solved solution listed
  unfold zeroSolver at solved
  split at solved
  · rename_i zero
    cases solved
    rw [List.mem_singleton.mp listed]
    exact decide_eq_true ⟨zero, rfl⟩
  · cases solved

/-- The search starts at the last nonce and goes over to the first. -/
theorem solvePow_validates_wrapped :
    validateSolution (P := symbolic) zeroVerifier [] 1000 ⟨[], 0, zeroSolution.1⟩ = .ok () :=
  @solvePow_validates symbolic zeroSolver zeroVerifier zeroSolver_solves ⟨.equiX 1000, [], 0⟩ 1000
    rfl 2 18446744073709551615 ⟨[], 0, zeroSolution.1⟩ (by decide +kernel)

end Nullspace
