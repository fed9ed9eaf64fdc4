import OpenMetrics.KubeLib.Callers
import OpenMetrics.Proxy.Lifecycle
import OpenMetrics.Proxy.Served
import OpenMetrics.Informer.Frame
import OpenMetrics.Informer.Edits
import OpenMetrics.Informer.Collisions
import OpenMetrics.Informer.Acceptance
import OpenMetrics.Informer.Provenance
import OpenMetrics.Informer.Returns
