/-
The names `common.hpp` gives the entries of requests and replies.
-/
import PolarisPhp.Lib.Bytes

namespace PolarisPhp.Key

open Bytes

def configPath : Bytes := lit "config_path"
def logDir : Bytes := lit "log_dir"

def namespace_ : Bytes := lit "namespace"
def service : Bytes := lit "service"
def protocol : Bytes := lit "protocol"
def version : Bytes := lit "version"
def token : Bytes := lit "token"
def ttl : Bytes := lit "ttl"
def host : Bytes := lit "host"
def port : Bytes := lit "port"
def weight : Bytes := lit "weight"
def priority : Bytes := lit "priority"
def metadata : Bytes := lit "metadata"
def vpcID : Bytes := lit "vpc_id"
def heartbeatFlag : Bytes := lit "heartbeat"
def canary : Bytes := lit "canary"
def ignoreHalfOpen : Bytes := lit "ignore_half_open"
def includeUnhealthyInstances : Bytes := lit "include_unhealthy_instances"
def includeCircuitBreakInstances : Bytes := lit "include_circuit_breaker_instances"
def skipRouteFilter : Bytes := lit "skip_route_filter"
def sourceService : Bytes := lit "source_service"
def sourceSetName : Bytes := lit "source_set_name"
def hashKey : Bytes := lit "hash_key"
def hashString : Bytes := lit "hash_string"
def labels : Bytes := lit "labels"
def replicateIndex : Bytes := lit "replicate_index"
def backupInstanceNum : Bytes := lit "backup_instance_num"
def metadataFailoverTypeStr : Bytes := lit "metadata_failover_type"
def flowId : Bytes := lit "flow_id"
def revision : Bytes := lit "revision"
def weightTypeStr : Bytes := lit "weigth_type"
def containerName : Bytes := lit "container_name"
def internalSetName : Bytes := lit "internal_set_name"
def logicSet : Bytes := lit "logic_set"
def region : Bytes := lit "region"
def zone : Bytes := lit "zone"
def campus : Bytes := lit "campus"
def localityAwareInfo : Bytes := lit "locality_aware_info"
def dynamicWeight : Bytes := lit "dynamic_weight"
def healthy : Bytes := lit "healthy"
def isolate : Bytes := lit "isolate"
def delay : Bytes := lit "delay"
def callRetStatus : Bytes := lit "ret_status"
def callRetCode : Bytes := lit "ret_code"
def amount : Bytes := lit "amount"
def instances : Bytes := lit "instances"
def getResponse : Bytes := lit "response"
def serviceSubSet : Bytes := lit "subset"
def callResponseType : Bytes := lit "response_type"
def callResponseTime : Bytes := lit "response_time"
def callResponseCode : Bytes := lit "response_code"
def loadBalanceTypeStr : Bytes := lit "load_balance_type"

def code : Bytes := lit "code"
def errMsg : Bytes := lit "err_msg"
def instanceID : Bytes := lit "instance_id"

def resultForQuota : Bytes := lit "quota_result"
def resultCodeForQuota : Bytes := lit "quota_result_code"
def leftQuota : Bytes := lit "quota_left"
def allQuota : Bytes := lit "quota_all"
def durationForQuota : Bytes := lit "quota_duration"
def isDegrade : Bytes := lit "degrade"
def waitTimeForQuota : Bytes := lit "wait_time"

end PolarisPhp.Key
