/-!
# Paths as text

Mountpoints and mount sources are compared as text.  `canonical` spells a path in one way, looking
at nothing but the text: no link is followed.  `isProperAncestor` compares two paths that are
spelled so.
-/

namespace ContainerAudit.Path

/-- The pieces of a path between its slashes; some may be empty. -/
def components (path : String) : List String := (path.toList.splitOn '/').map String.ofList

/-- Whether a path starts at the root. -/
def isRooted (path : String) : Bool := path.toList.head? == some '/'

/-- Follows one component from the directory whose names are on the stack, the innermost first.
    The root is its own parent; above the start of any other path the way up is kept. -/
def follow (rooted : Bool) (stack : List String) (component : String) : List String :=
  if component = "" ∨ component = "." then stack
  else if component = ".." then
    match stack with
    | [] => if rooted then [] else [".."]
    | top :: below => if top = ".." then ".." :: stack else below
  else component :: stack

/-- The components that remain of a path, in order. -/
def normalForm (rooted : Bool) (components : List String) : List String :=
  (components.foldl (follow rooted) []).reverse

/-- The text of a path in normal form. -/
def join (rooted : Bool) (components : List String) : String :=
  if rooted then "/" ++ "/".intercalate components
  else if components.isEmpty then "." else "/".intercalate components

/-- The one spelling of a path: no empty component, no `.`, and `..` only where it leads out of
    the start of a path that has no root. -/
def canonical (path : String) : String :=
  join (isRooted path) (normalForm (isRooted path) (components path))

/-- Whether the text `path` continues the text `ancestor` with a slash; the root continues to
    every other rooted path. -/
def isProperAncestor (ancestor path : String) : Bool :=
  if ancestor = path then false
  else if ancestor = "/" then isRooted path
  else match ancestor.toList.isPrefixOf? path.toList with
    | some rest => rest.head? == some '/'
    | none => false

end ContainerAudit.Path
