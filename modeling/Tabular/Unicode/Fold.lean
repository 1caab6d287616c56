import Tabular.Unicode.Ranges

/-!
# Case folding

Simple case folding takes every character to one representative of the characters that differ from
it in case only.
-/

namespace Tabular.Unicode

/-- The first and the last code point of a run, the image of the first one, and the distance between
the members of the run. All members move by the same distance. -/
structure FoldRun where
  first : Nat
  last : Nat
  target : Nat
  step : Nat

def foldTable : String :=
  "41,5a,61,1 b5,b5,3bc,1 c0,d6,e0,1 d8,de,f8,1 100,12e,101,2 132,136,133,2 139,147,13a,2
  14a,176,14b,2 178,178,ff,1 179,17d,17a,2 17f,17f,73,1 181,181,253,1 182,184,183,2 186,186,254,1
  187,187,188,1 189,18a,256,1 18b,18b,18c,1 18e,18e,1dd,1 18f,18f,259,1 190,190,25b,1
  191,191,192,1 193,193,260,1 194,194,263,1 196,196,269,1 197,197,268,1 198,198,199,1
  19c,19c,26f,1 19d,19d,272,1 19f,19f,275,1 1a0,1a4,1a1,2 1a6,1a6,280,1 1a7,1a7,1a8,1
  1a9,1a9,283,1 1ac,1ac,1ad,1 1ae,1ae,288,1 1af,1af,1b0,1 1b1,1b2,28a,1 1b3,1b5,1b4,2
  1b7,1b7,292,1 1b8,1b8,1b9,1 1bc,1bc,1bd,1 1c4,1c4,1c6,1 1c5,1c5,1c6,1 1c7,1c7,1c9,1
  1c8,1c8,1c9,1 1ca,1ca,1cc,1 1cb,1db,1cc,2 1de,1ee,1df,2 1f1,1f1,1f3,1 1f2,1f4,1f3,2
  1f6,1f6,195,1 1f7,1f7,1bf,1 1f8,21e,1f9,2 220,220,19e,1 222,232,223,2 23a,23a,2c65,1
  23b,23b,23c,1 23d,23d,19a,1 23e,23e,2c66,1 241,241,242,1 243,243,180,1 244,244,289,1
  245,245,28c,1 246,24e,247,2 345,345,3b9,1 370,372,371,2 376,376,377,1 37f,37f,3f3,1
  386,386,3ac,1 388,38a,3ad,1 38c,38c,3cc,1 38e,38f,3cd,1 391,3a1,3b1,1 3a3,3ab,3c3,1
  3c2,3c2,3c3,1 3cf,3cf,3d7,1 3d0,3d0,3b2,1 3d1,3d1,3b8,1 3d5,3d5,3c6,1 3d6,3d6,3c0,1
  3d8,3ee,3d9,2 3f0,3f0,3ba,1 3f1,3f1,3c1,1 3f4,3f4,3b8,1 3f5,3f5,3b5,1 3f7,3f7,3f8,1
  3f9,3f9,3f2,1 3fa,3fa,3fb,1 3fd,3ff,37b,1 400,40f,450,1 410,42f,430,1 460,480,461,2
  48a,4be,48b,2 4c0,4c0,4cf,1 4c1,4cd,4c2,2 4d0,52e,4d1,2 531,556,561,1 10a0,10c5,2d00,1
  10c7,10c7,2d27,1 10cd,10cd,2d2d,1 13f8,13fd,13f0,1 1c80,1c80,432,1 1c81,1c81,434,1
  1c82,1c82,43e,1 1c83,1c84,441,1 1c85,1c85,442,1 1c86,1c86,44a,1 1c87,1c87,463,1 1c88,1c88,a64b,1
  1c89,1c89,1c8a,1 1c90,1cba,10d0,1 1cbd,1cbf,10fd,1 1e00,1e94,1e01,2 1e9b,1e9b,1e61,1
  1e9e,1e9e,df,1 1ea0,1efe,1ea1,2 1f08,1f0f,1f00,1 1f18,1f1d,1f10,1 1f28,1f2f,1f20,1
  1f38,1f3f,1f30,1 1f48,1f4d,1f40,1 1f59,1f5f,1f51,2 1f68,1f6f,1f60,1 1f88,1f8f,1f80,1
  1f98,1f9f,1f90,1 1fa8,1faf,1fa0,1 1fb8,1fb9,1fb0,1 1fba,1fbb,1f70,1 1fbc,1fbc,1fb3,1
  1fbe,1fbe,3b9,1 1fc8,1fcb,1f72,1 1fcc,1fcc,1fc3,1 1fd8,1fd9,1fd0,1 1fda,1fdb,1f76,1
  1fe8,1fe9,1fe0,1 1fea,1feb,1f7a,1 1fec,1fec,1fe5,1 1ff8,1ff9,1f78,1 1ffa,1ffb,1f7c,1
  1ffc,1ffc,1ff3,1 2126,2126,3c9,1 212a,212a,6b,1 212b,212b,e5,1 2132,2132,214e,1 2160,216f,2170,1
  2183,2183,2184,1 24b6,24cf,24d0,1 2c00,2c2f,2c30,1 2c60,2c60,2c61,1 2c62,2c62,26b,1
  2c63,2c63,1d7d,1 2c64,2c64,27d,1 2c67,2c6b,2c68,2 2c6d,2c6d,251,1 2c6e,2c6e,271,1
  2c6f,2c6f,250,1 2c70,2c70,252,1 2c72,2c72,2c73,1 2c75,2c75,2c76,1 2c7e,2c7f,23f,1
  2c80,2ce2,2c81,2 2ceb,2ced,2cec,2 2cf2,2cf2,2cf3,1 a640,a66c,a641,2 a680,a69a,a681,2
  a722,a72e,a723,2 a732,a76e,a733,2 a779,a77b,a77a,2 a77d,a77d,1d79,1 a77e,a786,a77f,2
  a78b,a78b,a78c,1 a78d,a78d,265,1 a790,a792,a791,2 a796,a7a8,a797,2 a7aa,a7aa,266,1
  a7ab,a7ab,25c,1 a7ac,a7ac,261,1 a7ad,a7ad,26c,1 a7ae,a7ae,26a,1 a7b0,a7b0,29e,1 a7b1,a7b1,287,1
  a7b2,a7b2,29d,1 a7b3,a7b3,ab53,1 a7b4,a7c2,a7b5,2 a7c4,a7c4,a794,1 a7c5,a7c5,282,1
  a7c6,a7c6,1d8e,1 a7c7,a7c9,a7c8,2 a7cb,a7cb,264,1 a7cc,a7cc,a7cd,1 a7d0,a7d0,a7d1,1
  a7d6,a7da,a7d7,2 a7dc,a7dc,19b,1 a7f5,a7f5,a7f6,1 ab70,abbf,13a0,1 ff21,ff3a,ff41,1
  10400,10427,10428,1 104b0,104d3,104d8,1 10570,1057a,10597,1 1057c,1058a,105a3,1
  1058c,10592,105b3,1 10594,10595,105bb,1 10c80,10cb2,10cc0,1 10d50,10d65,10d70,1
  118a0,118bf,118c0,1 16e40,16e5f,16e60,1 1e900,1e921,1e922,1"

def FoldRun.ofTable (table : String) : List FoldRun :=
  (Text.words table).filterMap fun word =>
    match hexNumbers ',' word with
    | [first, last, target, step] => some ⟨first, last, target, step⟩
    | _ => none

namespace FoldRun

def contains (run : FoldRun) (n : Nat) : Bool :=
  decide (run.first ≤ n) && decide (n ≤ run.last) && (n - run.first) % run.step == 0

def source? (run : FoldRun) (image : Nat) : Option Nat :=
  if run.target ≤ image ∧ run.contains (run.first + (image - run.target)) then
    some (run.first + (image - run.target))
  else none

end FoldRun

def foldRuns : List FoldRun :=
  FoldRun.ofTable foldTable

def fold (n : Nat) : Nat :=
  match foldRuns.find? (·.contains n) with
  | some run => run.target + (n - run.first)
  | none => n

/-- The code points that differ from the given one in case at most. -/
def caseVariants (n : Nat) : List Nat :=
  let image := fold n
  image :: foldRuns.filterMap (·.source? image)

def caseClosure (set : Nat → Bool) (n : Nat) : Bool :=
  (caseVariants n).any set

end Tabular.Unicode
