import Typewright.Main
import Typewright.Proofs.CommandLine.Storage
import Typewright.Proofs.Constructor.EraTable
import Typewright.Proofs.Constructor.Growth
import Typewright.Proofs.Generation.Enumerations
import Typewright.Proofs.Generation.Reporting
import Typewright.Proofs.Generation.Undocumented
import Typewright.Proofs.Java.CommentEnd
import Typewright.Proofs.Java.Containers
import Typewright.Proofs.Java.Equality
import Typewright.Proofs.Java.Forcing
import Typewright.Proofs.Java.HashFold
import Typewright.Proofs.Java.Overloads
import Typewright.Proofs.Java.Signatures
import Typewright.Proofs.Java.TypeName
import Typewright.Proofs.Layout.Blocks
import Typewright.Proofs.Loading.Outcome
import Typewright.Proofs.Registry.Registration
import Typewright.Proofs.Schema.Encoding
import Typewright.Proofs.Settings.Failures
import Typewright.Proofs.Version.Padding
import Typewright.Registry.Request
import Typewright.Skeleton.Request
