import OneShot.Script.Session
import OneShot.Proofs.Quiet
import OneShot.Proofs.Routines
import OneShot.Proofs.Taking
import OneShot.Proofs.Refusal
import OneShot.Proofs.Threads
import OneShot.Proofs.Trail
import OneShot.Proofs.Reaching
import OneShot.Proofs.Deep.Computation
import OneShot.Proofs.Deep.Program
import OneShot.Proofs.Locations
import OneShot.Proofs.Deep.Nest
import OneShot.Proofs.Deep.Travel
import OneShot.Proofs.Deep.Focus
import OneShot.Proofs.Deep.Calls
import OneShot.Proofs.Deep.Dispatch
import OneShot.Proofs.Deep.Outward
import OneShot.Proofs.Deep.Ending
import OneShot.Proofs.Deep.Evaluation
import OneShot.Proofs.Deep.Setup
import OneShot.Proofs.Deep.Adequacy
import OneShot.Proofs.Frames.Turns
import OneShot.Proofs.Frames.Processes
import OneShot.Proofs.Frames.Moves
import OneShot.Proofs.Frames.Runs
import OneShot.Proofs.Frames.Activity
import OneShot.Proofs.Frames.Asking
import OneShot.Proofs.Frames.Chain
import OneShot.Proofs.Frames.Soundness
import OneShot.Proofs.Frames.Alignment
import OneShot.Proofs.Frames.Ownership
import OneShot.Proofs.Frames.Following
import OneShot.Proofs.Frames.Linearity
import OneShot.Proofs.Frames.Dispatch
import OneShot.Proofs.Frames.Depth
import OneShot.Proofs.Frames.Beginnings
import OneShot.Proofs.Frames.Unwinding
import OneShot.Proofs.Frames.Sweeping
import OneShot.Proofs.Frames.Uttering
import OneShot.Proofs.Frames.Returning
import OneShot.Proofs.Frames.Poise
import OneShot.Proofs.Frames.Falling
import OneShot.Proofs.Frames.Landing
import OneShot.Proofs.Frames.Throwing
import OneShot.Proofs.Frames.Suspensions
import OneShot.Proofs.Joined.Guest
import OneShot.Proofs.Joined.Layout
import OneShot.Proofs.Joined.Travel
import OneShot.Proofs.Joined.Carrying
import OneShot.Proofs.Joined.Delivering
import OneShot.Proofs.Joined.Dispatching
import OneShot.Proofs.Joined.Owning
import OneShot.Proofs.Joined.Performing
import OneShot.Proofs.Frames.Passing
import OneShot.Proofs.Frames.Requesting
import OneShot.Proofs.Frames.Spacing
import OneShot.Proofs.Frames.Withholding
import OneShot.Proofs.Frames.SingleUse
import OneShot.Proofs.Exits
import OneShot.Proofs.Joined.Awaiting
import OneShot.Proofs.Joined.Advancing
import OneShot.Proofs.Joined.Beginning
import OneShot.Proofs.Joined.Escaping
import OneShot.Proofs.Joined.Closing
import OneShot.Proofs.Joined.Finishing
import OneShot.Proofs.Joined.Adequacy
import OneShot.Proofs.Joined.Simulating
import OneShot.Proofs.Joined.CleaningUp
import OneShot.Proofs.Joined.Tasks
import OneShot.Proofs.Joined.Translating
import OneShot.Proofs.Joined.Rewrapping
import OneShot.Proofs.Joined.Combining
import OneShot.Proofs.Joined.Inserting
import OneShot.Proofs.Joined.Ordering
import OneShot.Proofs.Joined.Concurrent
import OneShot.Proofs.Joined.Blocking
import OneShot.Proofs.Joined.InPlace
import OneShot.Proofs.Joined.Commuting
import OneShot.Proofs.Joined.Variable
import OneShot.Proofs.Joined.Prompts
import OneShot.Proofs.Beneath
import OneShot.Proofs.Joined.Terminating
import OneShot.Proofs.Frames.Resends
import OneShot.Proofs.Split.Regrouping
