import NodeScaffold.Pattern.Basic

/-! # What a pattern may use

Some parts of a pattern depend on two flags: whether the case of letters counts, and whether
characters are those of all scripts or only ASCII. The tables of the scripts are not at hand, so
with all scripts there is no other case of a letter, no category and no edge of a word. With ASCII
only, nothing may stand for a byte that is no character by itself. -/
namespace NodeScaffold.Pattern
set_option autoImplicit false

structure Mode where
  /-- the case of letters does not count -/
  anyCase : Bool := false
  /-- characters of all scripts -/
  allScripts : Bool := true

def Mode.switch (mode : Mode) (switches : Switches) : Mode where
  anyCase := switches.state 'i' mode.anyCase
  allScripts := switches.state 'u' mode.allScripts

def Symbol.isAscii (s : Symbol) : Bool := s.char.toNat < 128

def Sign.isAvailable (mode : Mode) : Sign → Bool
  | symbol s => if mode.allScripts then !mode.anyCase else s.isAscii || !s.isByte
  | any => mode.allScripts
  | edge => true
  | wordEdge => !mode.allScripts
  | category negated => !mode.allScripts && !negated

namespace SetExpr

mutual

def isAvailable (mode : Mode) : SetExpr → Bool
  | empty => true
  | symbol s => if mode.allScripts then !mode.anyCase else s.isAscii
  | range first last =>
    if mode.allScripts then !mode.anyCase else first.isAscii && last.isAscii
  | named negated => if mode.allScripts then !mode.anyCase else !negated
  | category negated => !mode.allScripts && !negated
  | bracket negated body => (mode.allScripts || !negated) && body.isAvailable mode
  | union parts => areAvailable mode parts
  | operation left right => left.isAvailable mode && right.isAvailable mode

def areAvailable (mode : Mode) : List SetExpr → Bool
  | [] => true
  | part :: parts => part.isAvailable mode && areAvailable mode parts

end

end SetExpr

namespace Expr

mutual

/-- The mode after a pattern, unless something in it is not available. A group keeps its changes of
the mode to itself. -/
def modeAfter? (mode : Mode) : Expr → Option Mode
  | empty => some mode
  | flags switches => some (mode.switch switches)
  | sign s => if s.isAvailable mode then some mode else none
  | set negated body => if (SetExpr.bracket negated body).isAvailable mode then some mode else none
  | repeated e => e.modeAfter? mode
  | group _ switches body => (body.modeAfter? (mode.switch switches)).map fun _ => mode
  | alternatives branches => modeAfterAll? mode branches
  | sequence parts => modeAfterAll? mode parts

def modeAfterAll? (mode : Mode) : List Expr → Option Mode
  | [] => some mode
  | e :: es =>
    match e.modeAfter? mode with
    | some mode => modeAfterAll? mode es
    | none => none

end

def isAvailable (e : Expr) : Bool := (e.modeAfter? {}).isSome

end Expr

end NodeScaffold.Pattern
