/-
**Drawing a tree.**

A tree is drawn with one line for each node but the root, in the order of the walk.  A line is
indented by two blanks for each level below the first, and shows the text of its node; if the node
has routes, their common template and their verbs follow.

Main definitions:

* `Visit.line` — the line of one node;
* `Tree.lines`, `Tree.rendering` — the lines of a tree, and the drawing as a whole;
* `Tree.print` — drawing a tree into a sink.
-/
import RouteTree.Tree.Walk
import RouteTree.Text.Bytes
import RouteTree.Text.Quoted

set_option autoImplicit false
set_option relaxedAutoImplicit false

namespace RouteTree

/-- The template and the verbs of the routes that end at a node; nothing if there are none. -/
def Node.legend {H : Type} (n : Node H) : Text :=
  match n.ownRoutes.map (·.1.name) with
  | [] => []
  | verbs => [' ', ' '] ++ n.path ++ [' ', '['] ++ Text.joined [',', ' '] verbs ++ [']']

/-- The line of a node that is not the root. -/
def Visit.line {H : Type} (v : Visit H) : Text :=
  List.replicate (2 * (v.depth - 1)) ' ' ++ v.node.text ++ v.node.legend ++ ['\n']

namespace Tree

variable {H : Type}

/-- The nodes below the root, in order. -/
def visitsBelow (t : Tree H) : List (Visit H) := t.root.children.flatMap (·.visits 1)

/-- The lines of a drawing. -/
def lines (t : Tree H) : List Text := t.visitsBelow.map Visit.line

/-- **The drawing of a tree.** -/
def rendering (t : Tree H) : Text := t.lines.flatten

/-- **Draw a tree into a sink**, up to the first line that does not fit; the flag says whether the
whole drawing found room. -/
def print (t : Tree H) (s : Sink) : Sink × Bool := s.writeAll t.lines

end Tree

end RouteTree
