import Andrix.Deployment.Causes
import Andrix.Deployment.Memory
import Andrix.Deployment.CodecInverse
import Andrix.Deployment.Absence
import Andrix.Deployment.LeftOut
import Andrix.Deployment.Choice
import Andrix.Native.LifecycleLaws
import Andrix.Native.AuthorityLaws
import Andrix.Native.Freshness
import Andrix.Native.Entered
import Andrix.Native.RegistryLaws
import Andrix.Deployment.Crashes
import Andrix.Deployment.BootEdges
import Andrix.Terminal.Delivery
import Andrix.Supervision.InstanceRuns
import Andrix.Platform.CeStorageRuns
import Andrix.Platform.Generations
import Andrix.Policy.Patch
import Andrix.Terminal.Attachment
