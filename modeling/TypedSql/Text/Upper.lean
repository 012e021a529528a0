import TypedSql.Text.Classes

/-!
# Upper case

The upper-case form of a text, by the full case mapping of Unicode 14: most letters move by a fixed
distance within a run, and about a hundred expand to several characters.
-/

namespace TypedSql.Text

/-- Letters `first`, `first + stride`, ..., `last`, all at one distance from their capitals. -/
structure CaseRun where
  first : Nat
  last : Nat
  stride : Nat
  distance : Int

namespace CaseRun

/-- Reads `first-last/stride+distance`, or the same with a negative distance. -/
def read? (word : List Char) : Option CaseRun := do
  let [range, move] := splitOn '/' word | none
  let (first, last) ← CodeRanges.readRange? range
  match splitOn '+' move with
  | [stride, up] => return ⟨first, last, ← readHex? stride, Int.ofNat (← readHex? up)⟩
  | _ =>
    let [stride, down] := splitOn '-' move | none
    return ⟨first, last, ← readHex? stride, -Int.ofNat (← readHex? down)⟩

/-- The capital of a letter of the run. -/
def capitalOf? (run : CaseRun) (code : Nat) : Option Nat :=
  if run.first ≤ code && code ≤ run.last && (code - run.first) % run.stride == 0 then
    some (Int.ofNat code + run.distance).toNat
  else none

end CaseRun

/-- Letters beyond ASCII whose capital is one character. -/
def upperRuns : List CaseRun := List.filterMap CaseRun.read? <| CodeRanges.words <| String.toList
  "b5-b5/1+2e7 e0-f6/1-20 f8-fe/1-20 ff-ff/1+79 101-12f/2-1 131-131/1-e8 133-137/2-1
   13a-148/2-1 14b-177/2-1 17a-17e/2-1 17f-17f/1-12c 180-180/1+c3 183-185/2-1 188-188/1-1
   18c-18c/1-1 192-192/1-1 195-195/1+61 199-199/1-1 19a-19a/1+a3 19e-19e/1+82 1a1-1a5/2-1
   1a8-1a8/1-1 1ad-1ad/1-1 1b0-1b0/1-1 1b4-1b6/2-1 1b9-1b9/1-1 1bd-1bd/1-1 1bf-1bf/1+38
   1c5-1c5/1-1 1c6-1c6/1-2 1c8-1c8/1-1 1c9-1c9/1-2 1cb-1cb/1-1 1cc-1cc/1-2 1ce-1dc/2-1
   1dd-1dd/1-4f 1df-1ef/2-1 1f2-1f2/1-1 1f3-1f3/1-2 1f5-1f5/1-1 1f9-21f/2-1 223-233/2-1
   23c-23c/1-1 23f-240/1+2a3f 242-242/1-1 247-24f/2-1 250-250/1+2a1f 251-251/1+2a1c
   252-252/1+2a1e 253-253/1-d2 254-254/1-ce 256-257/1-cd 259-259/1-ca 25b-25b/1-cb
   25c-25c/1+a54f 260-260/1-cd 261-261/1+a54b 263-263/1-cf 265-265/1+a528 266-266/1+a544
   268-268/1-d1 269-269/1-d3 26a-26a/1+a544 26b-26b/1+29f7 26c-26c/1+a541 26f-26f/1-d3
   271-271/1+29fd 272-272/1-d5 275-275/1-d6 27d-27d/1+29e7 280-280/1-da 282-282/1+a543
   283-283/1-da 287-287/1+a52a 288-288/1-da 289-289/1-45 28a-28b/1-d9 28c-28c/1-47
   292-292/1-db 29d-29d/1+a515 29e-29e/1+a512 345-345/1+54 371-373/2-1 377-377/1-1
   37b-37d/1+82 3ac-3ac/1-26 3ad-3af/1-25 3b1-3c1/1-20 3c2-3c2/1-1f 3c3-3cb/1-20
   3cc-3cc/1-40 3cd-3ce/1-3f 3d0-3d0/1-3e 3d1-3d1/1-39 3d5-3d5/1-2f 3d6-3d6/1-36
   3d7-3d7/1-8 3d9-3ef/2-1 3f0-3f0/1-56 3f1-3f1/1-50 3f2-3f2/1+7 3f3-3f3/1-74 3f5-3f5/1-60
   3f8-3f8/1-1 3fb-3fb/1-1 430-44f/1-20 450-45f/1-50 461-481/2-1 48b-4bf/2-1 4c2-4ce/2-1
   4cf-4cf/1-f 4d1-52f/2-1 561-586/1-30 10d0-10fa/1+bc0 10fd-10ff/1+bc0 13f8-13fd/1-8
   1c80-1c80/1-186e 1c81-1c81/1-186d 1c82-1c82/1-1864 1c83-1c84/1-1862 1c85-1c85/1-1863
   1c86-1c86/1-185c 1c87-1c87/1-1825 1c88-1c88/1+89c2 1d79-1d79/1+8a04 1d7d-1d7d/1+ee6
   1d8e-1d8e/1+8a38 1e01-1e95/2-1 1e9b-1e9b/1-3b 1ea1-1eff/2-1 1f00-1f07/1+8 1f10-1f15/1+8
   1f20-1f27/1+8 1f30-1f37/1+8 1f40-1f45/1+8 1f51-1f57/2+8 1f60-1f67/1+8 1f70-1f71/1+4a
   1f72-1f75/1+56 1f76-1f77/1+64 1f78-1f79/1+80 1f7a-1f7b/1+70 1f7c-1f7d/1+7e
   1fb0-1fb1/1+8 1fbe-1fbe/1-1c25 1fd0-1fd1/1+8 1fe0-1fe1/1+8 1fe5-1fe5/1+7 214e-214e/1-1c
   2170-217f/1-10 2184-2184/1-1 24d0-24e9/1-1a 2c30-2c5f/1-30 2c61-2c61/1-1
   2c65-2c65/1-2a2b 2c66-2c66/1-2a28 2c68-2c6c/2-1 2c73-2c73/1-1 2c76-2c76/1-1
   2c81-2ce3/2-1 2cec-2cee/2-1 2cf3-2cf3/1-1 2d00-2d25/1-1c60 2d27-2d27/1-1c60
   2d2d-2d2d/1-1c60 a641-a66d/2-1 a681-a69b/2-1 a723-a72f/2-1 a733-a76f/2-1 a77a-a77c/2-1
   a77f-a787/2-1 a78c-a78c/1-1 a791-a793/2-1 a794-a794/1+30 a797-a7a9/2-1 a7b5-a7c3/2-1
   a7c8-a7ca/2-1 a7d1-a7d1/1-1 a7d7-a7d9/2-1 a7f6-a7f6/1-1 ab53-ab53/1-3a0
   ab70-abbf/1-97d0 ff41-ff5a/1-20 10428-1044f/1-28 104d8-104fb/1-28 10597-105a1/1-27
   105a3-105b1/1-27 105b3-105b9/1-27 105bb-105bc/1-27 10cc0-10cf2/1-40 118c0-118df/1-20
   16e60-16e7f/1-20 1e922-1e943/1-22"

/-- Reads `letter=first+second+...`, the expansion of one letter. -/
def readExpansion? (word : List Char) : Option (Nat × List Char) := do
  let [letter, capitals] := splitOn '=' word | none
  let codes ← (splitOn '+' capitals).mapM readHex?
  return (← readHex? letter, codes.map Char.ofNat)

/-- Letters whose upper-case form is several characters. -/
def upperExpansions : List (Nat × List Char) :=
  List.filterMap readExpansion? <| CodeRanges.words <| String.toList
  "df=53+53 149=2bc+4e 1f0=4a+30c 390=399+308+301 3b0=3a5+308+301 587=535+552 1e96=48+331
   1e97=54+308 1e98=57+30a 1e99=59+30a 1e9a=41+2be 1f50=3a5+313 1f52=3a5+313+300
   1f54=3a5+313+301 1f56=3a5+313+342 1f80=1f08+399 1f81=1f09+399 1f82=1f0a+399
   1f83=1f0b+399 1f84=1f0c+399 1f85=1f0d+399 1f86=1f0e+399 1f87=1f0f+399 1f88=1f08+399
   1f89=1f09+399 1f8a=1f0a+399 1f8b=1f0b+399 1f8c=1f0c+399 1f8d=1f0d+399 1f8e=1f0e+399
   1f8f=1f0f+399 1f90=1f28+399 1f91=1f29+399 1f92=1f2a+399 1f93=1f2b+399 1f94=1f2c+399
   1f95=1f2d+399 1f96=1f2e+399 1f97=1f2f+399 1f98=1f28+399 1f99=1f29+399 1f9a=1f2a+399
   1f9b=1f2b+399 1f9c=1f2c+399 1f9d=1f2d+399 1f9e=1f2e+399 1f9f=1f2f+399 1fa0=1f68+399
   1fa1=1f69+399 1fa2=1f6a+399 1fa3=1f6b+399 1fa4=1f6c+399 1fa5=1f6d+399 1fa6=1f6e+399
   1fa7=1f6f+399 1fa8=1f68+399 1fa9=1f69+399 1faa=1f6a+399 1fab=1f6b+399 1fac=1f6c+399
   1fad=1f6d+399 1fae=1f6e+399 1faf=1f6f+399 1fb2=1fba+399 1fb3=391+399 1fb4=386+399
   1fb6=391+342 1fb7=391+342+399 1fbc=391+399 1fc2=1fca+399 1fc3=397+399 1fc4=389+399
   1fc6=397+342 1fc7=397+342+399 1fcc=397+399 1fd2=399+308+300 1fd3=399+308+301
   1fd6=399+342 1fd7=399+308+342 1fe2=3a5+308+300 1fe3=3a5+308+301 1fe4=3a1+313
   1fe6=3a5+342 1fe7=3a5+308+342 1ff2=1ffa+399 1ff3=3a9+399 1ff4=38f+399 1ff6=3a9+342
   1ff7=3a9+342+399 1ffc=3a9+399 fb00=46+46 fb01=46+49 fb02=46+4c fb03=46+46+49
   fb04=46+46+4c fb05=53+54 fb06=53+54 fb13=544+546 fb14=544+535 fb15=544+53b fb16=54e+546
   fb17=544+53d"

/-- The upper-case form of one character. -/
def upperChar (c : Char) : List Char :=
  if c.toNat < 0x80 then [c.toUpper]
  else match upperExpansions.lookup c.toNat with
    | some capitals => capitals
    | none => [Char.ofNat ((upperRuns.findSome? (·.capitalOf? c.toNat)).getD c.toNat)]

/-- The upper-case form of a text. -/
def upper (text : String) : String := String.ofList (text.toList.flatMap upperChar)

end TypedSql.Text
