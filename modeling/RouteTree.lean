import RouteTree.Main
import RouteTree.Proofs.Cut
import RouteTree.Proofs.Matching
import RouteTree.Proofs.Reach
import RouteTree.Proofs.Growth
import RouteTree.Proofs.Upkeep
import RouteTree.Proofs.Registration
import RouteTree.Proofs.History
import RouteTree.Proofs.Answers
import RouteTree.Proofs.Redirects
import RouteTree.Proofs.Filling
import RouteTree.Proofs.Paths
import RouteTree.Proofs.Listing
import RouteTree.Proofs.RoundTrip
import RouteTree.Proofs.Conflicts
import RouteTree.Proofs.Verdicts
import RouteTree.Proofs.Arena
import RouteTree.Proofs.Wiring
import RouteTree.Proofs.Layout
import RouteTree.Proofs.ArenaOrder
import RouteTree.Proofs.RedirectChains
import RouteTree.Proofs.Agreement
import RouteTree.Proofs.Tally
import RouteTree.Proofs.Tables
import RouteTree.Proofs.ByteTexts
import RouteTree.Proofs.ByteCut
import RouteTree.Proofs.ByteArena
import RouteTree.Proofs.ByteLookup
import RouteTree.Proofs.ArenaWalk
import RouteTree.Proofs.Safety
import RouteTree.Proofs.Grammar
import RouteTree.Proofs.Ascent
import RouteTree.Proofs.TableContents
import RouteTree.Proofs.Breaks
import RouteTree.Proofs.Shape
import RouteTree.Proofs.Parameters
import RouteTree.Proofs.Buffers
import RouteTree.Proofs.Reports
import RouteTree.Proofs.Siblings
import RouteTree.Proofs.WalkOrder
import RouteTree.Proofs.Splitting
import RouteTree.Proofs.Bringing
import RouteTree.Proofs.Writers
import RouteTree.Proofs.Drawing
