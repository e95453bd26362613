import GateFormula.Assembly
import GateFormula.Store
import GateFormula.Token.Cursor

/-!
# Compiling formulas

A formula is scanned and assembled in one pass: the state of the assembly tells the
scanner whether an operand comes next. Compiling depends on the registry and the
text alone. Besides a program or the reasons why there is none, it yields the
variables that the text mentions up to its end or up to the first error in it, and
these are declared in the store that the formula belongs to.
-/

namespace GateFormula

/-- What compiling a text yields. -/
structure Compilation where
  /-- Variables mentioned, in order, with repetitions. -/
  mentioned : List String
  /-- The program, or why there is none. -/
  result : Except Diagnostics Program

/-- Scan and assemble from a cursor to the end or to the first error, which is returned
with the state before it. -/
def Assembly.run (registry : Registry) (cursor : Cursor) (a : Assembly) :
    Assembly × Option SyntaxError :=
  match _step : cursor.next registry a.expectsOperand with
  | (.error error, _) => (a, some error)
  | (.ok located, after) =>
    match a.take registry located with
    | .error error => (a, some error)
    | .ok b =>
      if _last : located.token = .finish then (b, none)
      else Assembly.run registry after b
termination_by cursor.rest.length
decreasing_by exact Cursor.next_shortens _step _last

/-- Compile a text. -/
def compile (registry : Registry) (source : String) : Compilation :=
  let (final, error?) := Assembly.run registry (.start source) .initial
  let result := match error? with
    | some error => .error ⟨source, .malformed error⟩
    | none =>
      if final.problems.isEmpty then .ok ⟨source, final.code.toList⟩
      else .error ⟨source, .unsupported final.problems.toList⟩
  ⟨final.mentioned.toList, result⟩

/-- Compile a text for a store: every variable that it mentions is declared there. -/
def compileIn (registry : Registry) (store : Store) (source : String) :
    Except Diagnostics Program × Store :=
  let compilation := compile registry source
  (compilation.result, store.declareAll compilation.mentioned)

end GateFormula
