import TemplateValues.Limits
import TemplateValues.Strategy
import TemplateValues.Template.Hint
import TemplateValues.Template.Scan

/-!
# Resolvers

A resolver finds out what the template strings of a source can become.  The state `σ` is that of its
oracle; it also shows whether the work is to be stopped, and between two sites a resolver looks.
-/

namespace TemplateValues

open Template

structure Resolver (σ : Type) where
  codebase : Codebase
  limits : Limits
  oracle : Option (Oracle σ)
  /-- Is the work to be stopped? -/
  isCancelled : σ → Bool

structure FileResolution where
  /-- The path from the root of the workspace. -/
  path : String
  sites : List Resolution
deriving DecidableEq, Repr, Inhabited

def loadMessage (p : Path) (fault : SourceFault) : String :=
  "Failed to load '" ++ p.text ++ "': " ++ fault.withCause

namespace Resolver

variable {σ : Type} (r : Resolver σ)

def resolveVariable (s : Source) (expression : String) (position : Position) : Work σ LiteralSet :=
  Strategy.firstKnown r.limits.maxResolutionDepth ⟨s, expression, position⟩
    (Strategy.standard r.codebase r.oracle)

/-- The values of some variables, without those about which nothing is known. -/
def resolveVariables (s : Source) : List (String × Position) → Work σ Known
  | [] => return []
  | (e, p) :: rest => do
    let values ← r.resolveVariable s e p
    let known ← resolveVariables s rest
    return if values.isEmpty then known else (e, values) :: known

/-- What a site can become, unless nothing is known about its variables. -/
def resolveSite (s : Source) (site : Site) : Work σ (Option Resolution) := do
  let known ← r.resolveVariables s site.variables
  if known.isEmpty then return none
  let combined :=
    combinations site.parts known r.limits.maxValuesPerVariable r.limits.maxCombinations
  return some
    { anchor := site.anchor
      start := site.start
      combinations := combined.values
      truncated := combined.truncated
      resolvedVariables := known.length
      totalVariables := site.variables.length }

/-- What some sites can become, until the work is to be stopped. -/
def resolveSites (s : Source) : List Site → Work σ (List Resolution)
  | [] => return []
  | site :: sites => do
    if r.isCancelled (← get) then return []
    let resolved ← r.resolveSite s site
    return resolved.toList ++ (← resolveSites s sites)

def resolveSource (s : Source) : Work σ (List Resolution) := r.resolveSites s s.sites

def resolveText (p : Path) (text : String) : Work σ (Except SourceFault (List Resolution)) :=
  match Source.parse r.codebase.workspace p text with
  | .ok s => return .ok (← r.resolveSource s)
  | .error f => return .error f

def resolvePath (p : Path) : Work σ (Except SourceFault (List Resolution)) :=
  match Source.load r.codebase.workspace p with
  | .ok s => return .ok (← r.resolveSource s)
  | .error f => return .error f

/-- The path of a file of a workspace: an absolute path as it is, and else from the root. -/
def placed (root : Path) (p : Path) : Path := if p.isAbsolute then p else root.descend p.text

def slashed (p : Path) : String := p.text.map fun c => if c = '\\' then '/' else c

/-- The resolution of a file of a workspace.  Files that are no sources are left out. -/
def resolveOne (root : Path) (p : Path) : Work σ (Option FileResolution) := do
  if r.isCancelled (← get) then return none
  let p := placed root p
  match ← r.resolvePath p with
  | .ok sites =>
    let path := match r.codebase.workspace.relativeText? p root with
      | .ok text => text
      | .error _ => slashed p
    return some ⟨path, sites⟩
  | .error _ => return none

def resolveFiles (root : Path) (paths : List Path) : Work σ (List FileResolution) := do
  return (← paths.mapM (r.resolveOne root)).filterMap id

end Resolver

end TemplateValues
