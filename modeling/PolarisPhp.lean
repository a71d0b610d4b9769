import PolarisPhp.RoundTrip
import PolarisPhp.Defaults
import PolarisPhp.Instances
import PolarisPhp.PolarisClass
import PolarisPhp.Ownership
import PolarisPhp.Decoder
import PolarisPhp.Numbers
import PolarisPhp.Window
import PolarisPhp.Identity
import PolarisPhp.Client
import PolarisPhp.Process
import PolarisPhp.Reading
import PolarisPhp.Entries
import PolarisPhp.Wrapper
import PolarisPhp.Stopping
import PolarisPhp.Delivery
import PolarisPhp.Report
