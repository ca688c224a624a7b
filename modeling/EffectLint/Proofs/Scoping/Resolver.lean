import EffectLint.Tree.Basic

/-!
What the names in a module stand for, found out without any state. An environment is handed from
one part of the tree to the next, and where a scope ends, the environment from before it is used
again.
-/

namespace EffectLint

-- A declaration that a name can stand for. Those of each kind are numbered in the order in which
-- they are met; classes go by their names.
inductive Site where
  | Import (number : Nat) (name : Name)
  | Class (name : Name)
  | Alias (number : Nat) (name : Name)
  | Function (number : Nat) (name : Name)
  | Variable (number : Nat) (name : Name)
  deriving DecidableEq

-- The names declared in a scope, newest first.
abbrev Frame := List (String × Site)

structure Environment where
  here : Frame
  -- innermost first
  outer : List Frame
  -- the number of the next variable
  next : Nat

namespace Environment

def empty : Environment :=
  ⟨[], [], 0⟩

def lookup (env : Environment) (name : String) : Option Site :=
  (env.here :: env.outer).findSome? (·.lookup name)

-- The first definition of a name in a scope stays.
def declare (env : Environment) (name : String) (site : Site) : Environment :=
  if (env.here.lookup name).isSome then env
  else { env with here := (name, site) :: env.here }

def declareVariable (env : Environment) (name : Name) : Environment :=
  { env with next := env.next + 1 }.declare name.text (.Variable env.next name)

def enter (env : Environment) : Environment :=
  { env with here := [], outer := env.here :: env.outer }

end Environment

-- What is said of a name: where it is used, the declaration that it stands for; where a variable is
-- declared by it, the declaration that its scope has under that name already.
inductive Resolution where
  | Use (name : String) (site : Option Site)
  | Declare (name : String) (earlier : Option Site)
  deriving DecidableEq

def Resolution.site : Resolution → Option Site
  | .Use _ site => site
  | .Declare _ earlier => earlier

-- What is said of each name, in source order, and the environment behind them.
abbrev Resolver := Environment → List Resolution × Environment

namespace Resolver

def skip : Resolver := fun env =>
  ([], env)

def use (name : String) : Resolver := fun env =>
  ([.Use name (env.lookup name)], env)

def declare (name : Name) : Resolver := fun env =>
  ([.Declare name.text (env.here.lookup name.text)], env.declareVariable name)

def andThen (first next : Resolver) : Resolver := fun env =>
  let (used, behind) := first env
  let (more, last) := next behind
  (used ++ more, last)

-- Nothing that is declared in a scope is known behind it.
def inScope (resolver : Resolver) : Resolver := fun env =>
  let (used, inner) := resolver env.enter
  (used, { env with next := inner.next })

mutual

def type : TypeTree → Resolver
  | .Basic _ _ | .Error _ => skip
  | .Named _ name => use name.text
  | .Pointer _ part | .Array _ part => type part
  | .AssocArray _ value key => (type value).andThen (type key)
  | .Callable _ _ _ result parameters => (type result).andThen (parameterTypes parameters)

def parameterTypes : List (Parameter TypeTree) → Resolver
  | [] => skip
  | ⟨_, written, _⟩ :: rest => (type written).andThen (parameterTypes rest)

end

mutual

-- A variable is known only behind its own value. What is declared in a question does not leave it.
def expr : Expr → Resolver
  | .Identifier _ name => use name
  | .New _ name => use name.text
  | .Integer _ _ | .Text _ _ | .Boolean _ _ | .Null _ | .NewAnonymous _ | .Error _ => skip
  | .Paren _ part | .Leading _ _ part | .Step _ _ part => expr part
  | .Binary _ _ first second | .Assign _ _ first second | .Comma _ first second
  | .Index _ first second | .Remove _ first second => (expr first).andThen (expr second)
  | .Conditional _ condition yes no => (expr condition).andThen ((expr yes).andThen (expr no))
  | .Cast _ written operand => (type written).andThen (expr operand)
  | .Call _ callee arguments => (expr callee).andThen (exprs arguments)
  | .Tuple _ elements => exprs elements
  | .Assert _ condition none => expr condition
  | .Assert _ condition (some message) => (expr condition).andThen (expr message)
  | .Declare _ name value => (expr value).andThen (declare name)
  | .Compiles _ operand => (expr operand).inScope

def exprs : List Expr → Resolver
  | [] => skip
  | first :: rest => (expr first).andThen (exprs rest)

end

def expr? : Option Expr → Resolver
  | none => skip
  | some written => expr written

mutual

-- Blocks, branches, loop bodies and the head of a `for` have scopes of their own.
def statement : Statement → Resolver
  | .Evaluate value => expr value
  | .Local declared =>
      (type declared.type).andThen ((expr? declared.value).andThen (declare declared.name))
  | .Return _ value => expr? value
  | .If condition yes none => (expr condition).andThen (statement yes).inScope
  | .If condition yes (some no) =>
      (expr condition).andThen ((statement yes).inScope.andThen (statement no).inScope)
  | .While condition body => (expr condition).andThen (statement body).inScope
  | .For none condition step body =>
      ((expr? condition).andThen ((expr? step).andThen (statement body).inScope)).inScope
  | .For (some first) condition step body =>
      ((statement first).andThen
        ((expr? condition).andThen ((expr? step).andThen (statement body).inScope))).inScope
  | .Block _ written => (statements written).inScope
  | .Empty _ => skip

def statements : List Statement → Resolver
  | [] => skip
  | first :: rest => (statement first).andThen (statements rest)

end

def parameters : List (Parameter TypeTree) → Resolver
  | [] => skip
  | ⟨_, _, none⟩ :: rest => parameters rest
  | ⟨_, written, some name⟩ :: rest =>
      ((type written).andThen (declare name)).andThen (parameters rest)

-- Parameters and body share a scope.
def body (declared : FunctionTree) : Resolver :=
  match declared.body with
  | some block => ((parameters declared.parameters).andThen (statements block.statements)).inScope
  | none => skip

def bodies : List FunctionTree → Resolver
  | [] => skip
  | first :: rest => (body first).andThen (bodies rest)

end Resolver

namespace Environment

def importsAndClasses : List Item → Nat → Environment → Environment
  | [], _, env => env
  | .Import name :: rest, number, env =>
      importsAndClasses rest (number + 1) (env.declare name.text (.Import number name))
  | .Class name :: rest, number, env =>
      importsAndClasses rest number (env.declare name.text (.Class name))
  | .Alias _ _ :: rest, number, env | .Function _ :: rest, number, env
  | .Global _ :: rest, number, env => importsAndClasses rest number env

def aliases : List Item → Nat → Environment → Environment
  | [], _, env => env
  | .Alias name _ :: rest, number, env =>
      aliases rest (number + 1) (env.declare name.text (.Alias number name))
  | .Import _ :: rest, number, env | .Class _ :: rest, number, env
  | .Function _ :: rest, number, env | .Global _ :: rest, number, env => aliases rest number env

-- A global variable is declared at its place, and what its value declares stays known.
def functionsAndGlobals : List Item → Nat → Environment → Environment
  | [], _, env => env
  | .Function declared :: rest, number, env =>
      functionsAndGlobals rest (number + 1)
        (env.declare declared.name.text (.Function number declared.name))
  | .Global declared :: rest, number, env =>
      functionsAndGlobals rest number
        (Resolver.expr? declared.value (env.declareVariable declared.name)).2
  | .Import _ :: rest, number, env | .Class _ :: rest, number, env
  | .Alias _ _ :: rest, number, env => functionsAndGlobals rest number env

-- What is known in every function of a module.
def module (items : List Item) : Environment :=
  functionsAndGlobals items 0 (aliases items 0 (importsAndClasses items 0 .empty))

end Environment

def Item.function? : Item → Option FunctionTree
  | .Function declared => some declared
  | .Import _ | .Class _ | .Alias _ _ | .Global _ => none

-- What is said of every name in the body of a function, one function behind the other.
def Resolver.ofBodies (items : List Item) : List Resolution :=
  (bodies (items.filterMap Item.function?) (.module items)).1

end EffectLint
